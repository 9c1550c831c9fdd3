/-
# The snapshot of a cutover

`create_snapshot` copies each source of a manifest to its backup name in one directory, and `restore_snapshot` puts
the sources back, one after the other: what stands at a source is removed and its backup is copied there.

Sources may contain each other, and so may backup names.  A backup name in another one's place makes one backup of two
sources; and a source that is put back before the one it lies in cannot be, if that one is a file by then.

* `exists_restored` : how far a restore has come, one source after the other;
* `restoresSnapshot_iff` : the conditions under which every source is put back, whatever became of the sources; for
  sources outside of the snapshot directory there are no others.
-/
import CodexRouter.Base.Disk
import CodexRouter.CutoverRuns

namespace CodexRouter

/-- `SnapshotSpec`, both paths by their components. -/
structure SnapshotSource where
  source : List String
  backupName : List PathComponent
  deriving DecidableEq

/-- The entry of the manifest, its source as one text. -/
def SnapshotSource.entry (spec : SnapshotSource) : SnapshotSpec := ⟨"/".intercalate spec.source, spec.backupName⟩

/-- The path of a backup in the snapshot directory. -/
def SnapshotSource.names (spec : SnapshotSource) : List String := spec.entry.names

/-- An error of the file system, or one with a text. -/
inductive SnapshotError where
  | io
  | bail (text : String)
  deriving DecidableEq

section

variable {C : Type} [DecidableEq C]

/-- The result of an operation of the file system. -/
def orIo {α : Type} (result : Option α) : Except SnapshotError α := result.elim (.error .io) .ok

/-- Make the snapshot directory anew. -/
def clearSnapshot (root : List String) (disk : Disk C) : Except SnapshotError (Disk C) :=
  match disk.get root with
  | none => orIo (disk.createDirAll root)
  | some .dir => orIo ((disk.remove root).createDirAll root)
  | some (.file _) => .error .io

/-- The body of the loop of `create_snapshot`. -/
def copySource (root : List String) (disk : Disk C) (spec : SnapshotSource) : Except SnapshotError (Disk C) :=
  if !safeBackupName spec.backupName then
    .error (.bail "CR-MIG-0002: snapshot backup name must be a relative safe path")
  else if disk.get spec.source = none then .error (.bail "CR-MIG-0002: snapshot source does not exist")
  else orIo (disk.copyTree spec.source (root ++ spec.names))

/-- `create_snapshot`. -/
def createSnapshot (root : List String) (disk : Disk C) (snapshots : List SnapshotSource) :
    Except SnapshotError (Disk C) :=
  (clearSnapshot root disk).bind fun disk => snapshots.foldlM (copySource root) disk

/-- The body of the loop of `restore_snapshot`. -/
def restoreSource (root : List String) (disk : Disk C) (spec : SnapshotSource) : Except SnapshotError (Disk C) :=
  if disk.get (root ++ spec.names) = none then .error (.bail "CR-MIG-0008: cutover snapshot is incomplete")
  else
    let emptied := if disk.get spec.source = none then disk else disk.remove spec.source
    orIo (emptied.copyTree (root ++ spec.names) spec.source)

/-- `restore_snapshot`. -/
def restoreSnapshot (root : List String) (disk : Disk C) (snapshots : List SnapshotSource) :
    Except SnapshotError (Disk C) :=
  snapshots.foldlM (restoreSource root) disk

/-! ## What is promised -/

/-- Nothing but the contents of the sources has changed. -/
def SameBeside (snapshots : List SnapshotSource) (disk later : Disk C) : Prop :=
  ∀ path, (∀ spec ∈ snapshots, ¬ spec.source <+: path) → later.get path = disk.get path

/-- The sources are what they were. -/
def BroughtBack (snapshots : List SnapshotSource) (disk restored : Disk C) : Prop :=
  ∀ spec ∈ snapshots, ∀ path, spec.source <+: path → restored.get path = disk.get path

/-- A disk where a restore was interrupted while a source was put back: some sources are back, of this one there is
anything, and directories above it may have been made. -/
def Interrupted (root : List String) (snapshots : List SnapshotSource) (later left : Disk C) : Prop :=
  ∃ front spec back mid, snapshots = front ++ spec :: back ∧ restoreSnapshot root later front = .ok mid
    ∧ ∀ path, ¬ spec.source <+: path → left.get path = mid.get path
      ∨ (path <+: spec.source ∧ mid.get path = none ∧ left.get path = some .dir)

/-- After a snapshot of a disk was created, and whatever becomes of the sources, a restore brings them back; where it
was interrupted, a further one has the same result. -/
structure RestoresSnapshot (root : List String) (snapshots : List SnapshotSource) (disk created : Disk C) : Prop where
  restores : ∀ later, SameBeside snapshots created later →
    ∃ restored, restoreSnapshot root later snapshots = .ok restored ∧ BroughtBack snapshots disk restored
  repeats : ∀ later left, SameBeside snapshots created later → Interrupted root snapshots later left →
    ∃ restored restored', restoreSnapshot root later snapshots = .ok restored
      ∧ restoreSnapshot root left snapshots = .ok restored' ∧ ∀ path, restored'.get path = restored.get path

/-! ## When it is kept -/

/-- No source lies in the snapshot directory. -/
def SourcesOutside (root : List String) (snapshots : List SnapshotSource) : Prop :=
  ∀ spec ∈ snapshots, ¬ root <+: spec.source

/-- Where a source lies in another one, that one or one that it lies in is put back before. -/
def OuterFirst (snapshots : List SnapshotSource) : Prop :=
  ∀ front spec back, snapshots = front ++ spec :: back → ∀ outer ∈ snapshots, outer.source <+: spec.source →
    outer.source ≠ spec.source → ∃ earlier ∈ front, earlier.source <+: outer.source

/-- The source of a backup has something for a place in the snapshot directory. -/
def FillsPlace (disk : Disk C) (spec : SnapshotSource) (place : List String) : Prop :=
  ∃ below, place = spec.names ++ below ∧ (disk.get (spec.source ++ below)).isSome

/-- Where a source is put back for good, its place in the snapshot directory gets what it has there: the last source
that has something for the place has the same, and where it has nothing, no backup name makes a directory of it. -/
def KeepsPlaces (disk : Disk C) (snapshots : List SnapshotSource) : Prop :=
  ∀ front spec back, snapshots = front ++ spec :: back → ∀ below,
    (∀ later ∈ back, ¬ later.source <+: spec.source ++ below) →
    (∀ front' last back' below', snapshots = front' ++ last :: back' → spec.names ++ below = last.names ++ below' →
      (disk.get (last.source ++ below')).isSome → (∀ other ∈ back', ¬ FillsPlace disk other (spec.names ++ below)) →
      disk.get (last.source ++ below') = disk.get (spec.source ++ below))
    ∧ (disk.get (spec.source ++ below) = none → ∀ other ∈ snapshots, ¬ spec.names ++ below <+: other.names)

end

/-! ## Steps -/

section

variable {C : Type} [DecidableEq C] {root : List String} {disk disk' : Disk C} {snapshots : List SnapshotSource}
  {spec : SnapshotSource}

omit [DecidableEq C] in
theorem foldlM_cons_ok {α : Type} {f : Disk C → α → Except SnapshotError (Disk C)} {a : α} {l : List α} :
    (a :: l).foldlM f disk = .ok disk' ↔ ∃ mid, f disk a = .ok mid ∧ l.foldlM f mid = .ok disk' := by
  rw [List.foldlM_cons]
  cases hstep : f disk a with
  | error error =>
    constructor
    · intro h
      cases h
    · rintro ⟨mid, hmid, -⟩
      cases hmid
  | ok mid =>
    constructor
    · exact fun h => ⟨mid, rfl, h⟩
    · rintro ⟨mid', hmid, h⟩
      cases hmid
      exact h

omit [DecidableEq C] in
theorem foldlM_append_ok {α : Type} {f : Disk C → α → Except SnapshotError (Disk C)} {l l' : List α} :
    (l ++ l').foldlM f disk = .ok disk' ↔ ∃ mid, l.foldlM f disk = .ok mid ∧ l'.foldlM f mid = .ok disk' := by
  rw [List.foldlM_append]
  cases hfront : l.foldlM f disk with
  | error error =>
    constructor
    · intro h
      cases h
    · rintro ⟨mid, hmid, -⟩
      cases hmid
  | ok mid =>
    constructor
    · exact fun h => ⟨mid, rfl, h⟩
    · rintro ⟨mid', hmid, h⟩
      cases hmid
      exact h

theorem orIo_eq_ok {α : Type} {result : Option α} {a : α} : orIo result = .ok a ↔ result = some a := by
  cases result with
  | none =>
    constructor
    · intro h
      cases h
    · intro h
      cases h
  | some b => exact ⟨fun h => congrArg some (Except.ok.inj h), fun h => congrArg Except.ok (Option.some.inj h)⟩

theorem copySource_eq_ok (h : copySource root disk spec = .ok disk') :
    spec.names ≠ [] ∧ (disk.get spec.source).isSome ∧ ¬ spec.source <+: root
      ∧ disk.copyTree spec.source (root ++ spec.names) = some disk' := by
  unfold copySource at h
  split at h
  · cases h
  · rename_i hsafe
    split at h
    · cases h
    · rename_i hsource
      have hcopy := orIo_eq_ok.mp h
      have hnames : spec.entry.names ≠ [] := names_ne_nil (show safeBackupName spec.backupName = true by simpa using hsafe)
      refine ⟨hnames, Option.isSome_iff_ne_none.mpr hsource, ?_, hcopy⟩
      exact fun hle => (Disk.copyTree_eq_some hcopy).1 (hle.trans (List.prefix_append _ _))

/-- The snapshot directory, anew. -/
theorem get_clearSnapshot (h : clearSnapshot root disk = .ok disk') (path : List String) :
    disk'.get path = if root <+: path then (if path = root then some .dir else none)
      else if path <+: root then some .dir else disk.get path := by
  unfold clearSnapshot at h
  have hdirs : ∀ {cleared : Disk C}, (∀ below, root <+: below → cleared.get below = none) →
      (∀ other, ¬ root <+: other → cleared.get other = disk.get other) → cleared.createDirAll root = some disk' →
      disk'.get path = if root <+: path then (if path = root then some .dir else none)
        else if path <+: root then some .dir else disk.get path := by
    intro cleared hbelow hother hmade
    obtain ⟨hget, hfree⟩ := Disk.get_createDirAll hmade path
    rw [hget]
    by_cases hroot : root <+: path
    · rw [if_pos hroot, hbelow path hroot, Option.none_or]
      by_cases hle : path <+: root
      · have hsame : path = root := hle.eq_of_length (Nat.le_antisymm hle.length_le hroot.length_le)
        rw [if_pos hle, if_pos hsame]
      · have hne : path ≠ root := by
          rintro rfl
          exact hle (List.prefix_refl _)
        rw [if_neg hle, if_neg hne]
    · rw [if_neg hroot]
      by_cases hle : path <+: root
      · rw [if_pos hle, if_pos hle]
        rcases hfree hle with hnone | hdir
        · rw [hnone]
          rfl
        · rw [hdir]
          rfl
      · rw [if_neg hle, if_neg hle, Option.or_none, hother path hroot]
  split at h
  · rename_i hnone
    refine hdirs (fun below hroot => ?_) (fun other _ => rfl) (orIo_eq_ok.mp h)
    cases hbelow : disk.get below with
    | none => rfl
    | some node =>
      have hsome : (disk.get below).isSome := by rw [hbelow]; rfl
      by_cases hsame : root = below
      · rw [← hsame, hnone] at hbelow
        cases hbelow
      · have hdir := Disk.get_top hsome hroot hsame
        rw [hnone] at hdir
        cases hdir
  · refine hdirs (fun below hroot => ?_) (fun other hother => ?_) (orIo_eq_ok.mp h)
    · rw [Disk.get_remove, if_pos hroot]
    · rw [Disk.get_remove, if_neg hother]
  · cases h

/-! ## Sources and backups do not meet -/

/-- No source contains the snapshot directory or lies in it. -/
def SourcesApart (root : List String) (snapshots : List SnapshotSource) : Prop :=
  ∀ spec ∈ snapshots, ¬ root <+: spec.source ∧ ¬ spec.source <+: root

theorem SourcesApart.not_prefix (h : SourcesApart root snapshots) (hspec : spec ∈ snapshots) {path : List String}
    (hpath : spec.source <+: path) : ¬ root <+: path := by
  intro hroot
  rcases List.prefix_or_prefix_of_prefix hpath hroot with hle | hle
  · exact (h spec hspec).2 hle
  · exact (h spec hspec).1 hle

/-- A copy to the snapshot directory leaves the sources what they are. -/
theorem BroughtBack.copySource (hapart : SourcesApart root snapshots) (hsame : BroughtBack snapshots disk disk')
    {disk'' : Disk C} (h : copySource root disk' spec = .ok disk'') : BroughtBack snapshots disk disk'' := by
  intro other hother path hpath
  have hroot := hapart.not_prefix hother hpath
  rw [Disk.get_copyTree (copySource_eq_ok h).2.2.2, Disk.overlay, if_neg fun hle => hroot ((List.prefix_append _ _).trans hle),
    if_neg, hsame other hother path hpath]
  intro hle
  exact hapart.not_prefix hother (hpath.trans hle) (List.prefix_append _ _)

/-- What a copy makes of a place in the snapshot directory. -/
theorem get_copySource (hspec : spec ∈ snapshots) (hsame : BroughtBack snapshots disk disk') {disk'' : Disk C}
    (h : copySource root disk' spec = .ok disk'') (place : List String) :
    disk''.get (root ++ place)
      = Disk.overlay (fun place => disk'.get (root ++ place)) spec.names (disk.tree spec.source) place := by
  have htree : disk'.tree spec.source = disk.tree spec.source :=
    funext fun below => hsame spec hspec _ (List.prefix_append _ _)
  rw [Disk.get_copyTree (copySource_eq_ok h).2.2.2, htree, Disk.overlay, Disk.overlay]
  simp only [List.prefix_append_right_inj, List.length_append, List.drop_length_add_append]

end

/-! ## Backups -/

section

variable {C : Type} [DecidableEq C] {root : List String} {disk disk' created : Disk C}
  {snapshots done : List SnapshotSource} {spec : SnapshotSource} {place below : List String}

/-- What is created. -/
theorem createSnapshot_eq_ok (h : createSnapshot root disk snapshots = .ok created) :
    ∃ cleared, clearSnapshot root disk = .ok cleared ∧ snapshots.foldlM (copySource root) cleared = .ok created := by
  unfold createSnapshot at h
  cases hcleared : clearSnapshot root disk with
  | error error =>
    rw [hcleared] at h
    cases h
  | ok cleared =>
    rw [hcleared] at h
    exact ⟨cleared, rfl, h⟩

/-- Each source was copied. -/
theorem exists_copySource (h : done.foldlM (copySource root) disk = .ok disk') (hspec : spec ∈ done) :
    ∃ mid mid' : Disk C, copySource root mid spec = .ok mid' := by
  induction done generalizing disk with
  | nil => cases hspec
  | cons first rest ih =>
    obtain ⟨mid, hfirst, hrest⟩ := foldlM_cons_ok.mp h
    rcases List.mem_cons.mp hspec with rfl | hspec
    · exact ⟨disk, mid, hfirst⟩
    · exact ih hrest hspec

theorem sourcesApart_of_outside (h : createSnapshot root disk snapshots = .ok created)
    (houtside : SourcesOutside root snapshots) : SourcesApart root snapshots := by
  obtain ⟨cleared, -, hfold⟩ := createSnapshot_eq_ok h
  intro spec hspec
  obtain ⟨mid, mid', hcopy⟩ := exists_copySource hfold hspec
  exact ⟨houtside spec hspec, (copySource_eq_ok hcopy).2.2.1⟩

/-- Making the snapshot directory anew leaves the sources what they are. -/
theorem broughtBack_clearSnapshot (hapart : SourcesApart root snapshots) (h : clearSnapshot root disk = .ok disk') :
    BroughtBack snapshots disk disk' := by
  intro spec hspec path hpath
  rw [get_clearSnapshot h, if_neg (hapart.not_prefix hspec hpath), if_neg]
  exact fun hle => (hapart spec hspec).2 (hpath.trans hle)

theorem broughtBack_foldlM (hapart : SourcesApart root snapshots) (hsame : BroughtBack snapshots disk disk')
    {disk'' : Disk C} (h : done.foldlM (copySource root) disk' = .ok disk'') : BroughtBack snapshots disk disk'' := by
  induction done generalizing disk' with
  | nil =>
    rw [← Except.ok.inj h]
    exact hsame
  | cons first rest ih =>
    obtain ⟨mid, hfirst, hrest⟩ := foldlM_cons_ok.mp h
    exact ih (hsame.copySource hapart hfirst) hrest

/-- What a source has for its place is its tree there. -/
theorem get_copySource_of_fills (hspec : spec ∈ snapshots) (hsame : BroughtBack snapshots disk disk')
    {disk'' : Disk C} (h : copySource root disk' spec = .ok disk'') (hsome : (disk.get (spec.source ++ below)).isSome) :
    disk''.get (root ++ (spec.names ++ below)) = disk.get (spec.source ++ below) := by
  obtain ⟨node, hnode⟩ := Option.isSome_iff_exists.mp hsome
  rw [get_copySource hspec hsame h, Disk.overlay_append, Disk.tree, hnode]
  rfl

/-- What stands at a place stays while nothing else is copied there. -/
theorem get_copySource_of_isSome (hspec : spec ∈ snapshots) (hsame : BroughtBack snapshots disk disk')
    {disk'' : Disk C} (h : copySource root disk' spec = .ok disk'') (hfills : ¬ FillsPlace disk spec place)
    (hsome : (disk'.get (root ++ place)).isSome) : disk''.get (root ++ place) = disk'.get (root ++ place) := by
  obtain ⟨node, hnode⟩ := Option.isSome_iff_exists.mp hsome
  rw [get_copySource hspec hsame h, Disk.overlay]
  split
  · rename_i hle
    obtain ⟨below, rfl⟩ := hle
    have hnone : disk.tree spec.source below = none := by
      cases htree : disk.tree spec.source below with
      | none => rfl
      | some node => exact absurd ⟨below, rfl, by rw [Disk.tree] at htree; rw [htree]; rfl⟩ hfills
    rw [List.drop_left, hnone, Option.none_or]
  · split
    · rw [hnode]
      rfl
    · rfl

theorem get_foldlM_of_isSome (hdone : ∀ spec ∈ done, spec ∈ snapshots) (hapart : SourcesApart root snapshots)
    (hsame : BroughtBack snapshots disk disk') {disk'' : Disk C}
    (h : done.foldlM (copySource root) disk' = .ok disk'') (hfills : ∀ spec ∈ done, ¬ FillsPlace disk spec place)
    (hsome : (disk'.get (root ++ place)).isSome) : disk''.get (root ++ place) = disk'.get (root ++ place) := by
  induction done generalizing disk' with
  | nil =>
    rw [← Except.ok.inj h]
  | cons first rest ih =>
    obtain ⟨mid, hfirst, hrest⟩ := foldlM_cons_ok.mp h
    have hfirst' := hdone first List.mem_cons_self
    have hkept := get_copySource_of_isSome hfirst' hsame hfirst (hfills first List.mem_cons_self) hsome
    rw [ih (fun spec hspec => hdone spec (List.mem_cons_of_mem _ hspec)) (hsame.copySource hapart hfirst) hrest
      (fun spec hspec => hfills spec (List.mem_cons_of_mem _ hspec)) (by rw [hkept]; exact hsome), hkept]

/-- A place that no source has something for is a directory above a backup, or nothing. -/
theorem get_foldlM_of_none (hdone : ∀ spec ∈ done, spec ∈ snapshots) (hapart : SourcesApart root snapshots)
    (hsame : BroughtBack snapshots disk disk') {disk'' : Disk C}
    (h : done.foldlM (copySource root) disk' = .ok disk'') (hfills : ∀ spec ∈ done, ¬ FillsPlace disk spec place)
    (hnone : disk'.get (root ++ place) = none) :
    disk''.get (root ++ place) = none ↔ ∀ spec ∈ done, ¬ place <+: spec.names := by
  induction done generalizing disk' with
  | nil =>
    rw [← Except.ok.inj h]
    exact iff_of_true hnone fun _ hmem => nomatch hmem
  | cons first rest ih =>
    obtain ⟨mid, hfirst, hrest⟩ := foldlM_cons_ok.mp h
    have hmem := hdone first List.mem_cons_self
    have hdone' : ∀ spec ∈ rest, spec ∈ snapshots := fun spec hspec => hdone spec (List.mem_cons_of_mem _ hspec)
    have hfills' : ∀ spec ∈ rest, ¬ FillsPlace disk spec place := fun spec hspec =>
      hfills spec (List.mem_cons_of_mem _ hspec)
    have hsame' := hsame.copySource hapart hfirst
    have hget := get_copySource hmem hsame hfirst place
    by_cases habove : place <+: first.names
    · -- a directory is made, and stays
      have hnot : ¬ first.names <+: place := by
        intro hle
        have heq : place = first.names := habove.eq_of_length (Nat.le_antisymm habove.length_le hle.length_le)
        refine hfills first List.mem_cons_self ⟨[], by rw [heq, List.append_nil], ?_⟩
        rw [List.append_nil, ← hsame first hmem first.source (List.prefix_refl _)]
        exact (copySource_eq_ok hfirst).2.1
      rw [Disk.overlay, if_neg hnot, if_pos habove, hnone] at hget
      have hkept := get_foldlM_of_isSome hdone' hapart hsame' hrest hfills' (by rw [hget]; rfl)
      rw [hkept, hget]
      exact iff_of_false (Option.some_ne_none _) fun hall => hall first List.mem_cons_self habove
    · have hmid : mid.get (root ++ place) = none := by
        rw [hget, Disk.overlay]
        split
        · rename_i hle
          obtain ⟨below, rfl⟩ := hle
          rw [List.drop_left, hnone, Option.or_none]
          cases htree : disk.tree first.source below with
          | none => rfl
          | some node =>
            exact absurd ⟨below, rfl, by rw [Disk.tree] at htree; rw [htree]; rfl⟩ (hfills first List.mem_cons_self)
        · exact hnone
      rw [ih hdone' hsame' hrest hfills' hmid, List.forall_mem_cons]
      exact (and_iff_right habove).symm

end

/-- The last element with a property. -/
theorem exists_last {α : Type} {p : α → Prop} {l : List α} (h : ∃ a ∈ l, p a) :
    ∃ front a back, l = front ++ a :: back ∧ p a ∧ ∀ b ∈ back, ¬ p b := by
  induction l with
  | nil =>
    obtain ⟨a, ha, -⟩ := h
    cases ha
  | cons first rest ih =>
    by_cases hrest : ∃ a ∈ rest, p a
    · obtain ⟨front, a, back, rfl, ha, hback⟩ := ih hrest
      exact ⟨first :: front, a, back, rfl, ha, hback⟩
    · obtain ⟨a, ha, hpa⟩ := h
      rcases List.mem_cons.mp ha with rfl | ha
      · exact ⟨[], a, rest, rfl, hpa, fun b hb hpb => hrest ⟨b, hb, hpb⟩⟩
      · exact absurd ⟨a, ha, hpa⟩ hrest

section

variable {C : Type} [DecidableEq C] {root : List String} {disk created : Disk C} {snapshots : List SnapshotSource}
  {spec : SnapshotSource} {place below : List String}

/-- Where a source is put back for good, its backup is what it was. -/
def HoldsPlaces (root : List String) (snapshots : List SnapshotSource) (disk created : Disk C) : Prop :=
  ∀ front spec back, snapshots = front ++ spec :: back → ∀ below,
    (∀ later ∈ back, ¬ later.source <+: spec.source ++ below) →
    created.get (root ++ (spec.names ++ below)) = disk.get (spec.source ++ below)

/-- What is known of a snapshot that was created. -/
structure Created (root : List String) (snapshots : List SnapshotSource) (disk created : Disk C) : Prop where
  apart : SourcesApart root snapshots
  same : BroughtBack snapshots disk created
  exists_source : ∀ spec ∈ snapshots, (disk.get spec.source).isSome
  /-- The last source that has something for a place. -/
  filled : ∀ {front last back below}, snapshots = front ++ last :: back →
    (disk.get (last.source ++ below)).isSome → (∀ other ∈ back, ¬ FillsPlace disk other (last.names ++ below)) →
    created.get (root ++ (last.names ++ below)) = disk.get (last.source ++ below)
  /-- A place that no source has something for. -/
  unfilled : ∀ {place}, place ≠ [] → (∀ spec ∈ snapshots, ¬ FillsPlace disk spec place) →
    (created.get (root ++ place) = none ↔ ∀ spec ∈ snapshots, ¬ place <+: spec.names)
  /-- The directories of a source are directories in its backup. -/
  dirs : ∀ {spec below}, spec ∈ snapshots → disk.get (spec.source ++ below) = some .dir →
    created.get (root ++ (spec.names ++ below)) = some .dir
  names : ∀ spec ∈ snapshots, spec.names ≠ []

theorem foldlM_dir {done : List SnapshotSource} {disk' disk'' : Disk C} {path : List String}
    (h : done.foldlM (copySource root) disk' = .ok disk'') (hdir : disk'.get path = some .dir) :
    disk''.get path = some .dir := by
  induction done generalizing disk' with
  | nil =>
    rw [← Except.ok.inj h]
    exact hdir
  | cons first rest ih =>
    obtain ⟨mid, hfirst, hrest⟩ := foldlM_cons_ok.mp h
    exact ih hrest (Disk.copyTree_dir (copySource_eq_ok hfirst).2.2.2 hdir)

theorem created_of_createSnapshot (h : createSnapshot root disk snapshots = .ok created)
    (houtside : SourcesOutside root snapshots) : Created root snapshots disk created := by
  have hapart := sourcesApart_of_outside h houtside
  obtain ⟨cleared, hclear, hfold⟩ := createSnapshot_eq_ok h
  have hcleared := broughtBack_clearSnapshot hapart hclear
  -- the disk right before and right after a source was copied
  have hsplit : ∀ {front spec back}, snapshots = front ++ spec :: back → ∃ mid mid',
      BroughtBack snapshots disk mid ∧ BroughtBack snapshots disk mid' ∧ copySource root mid spec = .ok mid'
        ∧ back.foldlM (copySource root) mid' = .ok created := by
    intro front spec back heq
    rw [heq] at hfold
    obtain ⟨mid, hfront, hrest⟩ := foldlM_append_ok.mp hfold
    obtain ⟨mid', hcopy, hback⟩ := foldlM_cons_ok.mp hrest
    have hmid := broughtBack_foldlM hapart hcleared hfront
    exact ⟨mid, mid', hmid, hmid.copySource hapart hcopy, hcopy, hback⟩
  refine ⟨hapart, broughtBack_foldlM hapart hcleared hfold, ?_, ?_, ?_, ?_, ?_⟩
  · intro spec hspec
    obtain ⟨front, back, heq⟩ := List.append_of_mem hspec
    obtain ⟨mid, mid', hmid, -, hcopy, -⟩ := hsplit heq
    rw [← hmid spec hspec spec.source (List.prefix_refl _)]
    exact (copySource_eq_ok hcopy).2.1
  · intro front last back below heq hsome hback
    obtain ⟨mid, mid', hmid, hmid', hcopy, hrest⟩ := hsplit heq
    have hlast : last ∈ snapshots := heq ▸ List.mem_append_cons_self
    have hback' : ∀ spec ∈ back, spec ∈ snapshots := by
      intro spec hspec
      rw [heq]
      exact List.mem_append_right _ (List.mem_cons_of_mem _ hspec)
    have hget := get_copySource_of_fills hlast hmid hcopy hsome
    rw [get_foldlM_of_isSome hback' hapart hmid' hrest hback (by rw [hget]; exact hsome), hget]
  · intro place hne hfills
    refine get_foldlM_of_none (fun _ => id) hapart hcleared hfold hfills ?_
    rw [get_clearSnapshot hclear, if_pos (List.prefix_append _ _), if_neg (by simp [hne])]
  · intro spec below hspec hdir
    obtain ⟨front, back, heq⟩ := List.append_of_mem hspec
    obtain ⟨mid, mid', hmid, -, hcopy, hrest⟩ := hsplit heq
    exact foldlM_dir hrest ((get_copySource_of_fills hspec hmid hcopy (by rw [hdir]; rfl)).trans hdir)
  · intro spec hspec
    obtain ⟨front, back, heq⟩ := List.append_of_mem hspec
    obtain ⟨mid, mid', -, -, hcopy, -⟩ := hsplit heq
    exact (copySource_eq_ok hcopy).1

namespace Created

omit [DecidableEq C] in
/-- What a source has for a place, its backup has something for. -/
theorem isSome_of_fills (hcreated : Created root snapshots disk created) (hspec : spec ∈ snapshots)
    (hfills : FillsPlace disk spec place) : (created.get (root ++ place)).isSome := by
  have hfilled : ∃ spec ∈ snapshots, FillsPlace disk spec place := ⟨spec, hspec, hfills⟩
  obtain ⟨front, last, back, heq, ⟨below, rfl, hsome⟩, hback⟩ := exists_last hfilled
  rw [hcreated.filled heq hsome hback]
  exact hsome

omit [DecidableEq C] in
theorem keepsPlaces_iff (hcreated : Created root snapshots disk created) :
    KeepsPlaces disk snapshots ↔ HoldsPlaces root snapshots disk created := by
  constructor
  · intro hkeeps front spec back heq below hlater
    obtain ⟨hlast, hnames⟩ := hkeeps front spec back heq below hlater
    have hspec : spec ∈ snapshots := heq ▸ List.mem_append_cons_self
    by_cases hfilled : ∃ other ∈ snapshots, FillsPlace disk other (spec.names ++ below)
    · obtain ⟨front', last, back', heq', ⟨below', hplace, hsome⟩, hback⟩ := exists_last hfilled
      rw [hplace] at hback ⊢
      rw [hcreated.filled heq' hsome hback]
      rw [← hplace] at hback
      exact hlast front' last back' below' heq' hplace hsome hback
    · have hnone : disk.get (spec.source ++ below) = none := by
        by_contra hsome
        exact hfilled ⟨spec, hspec, below, rfl, Option.isSome_iff_ne_none.mpr hsome⟩
      have hne : spec.names ++ below ≠ [] := by simp [hcreated.names spec hspec]
      rw [hnone, hcreated.unfilled hne fun other hother hfills => hfilled ⟨other, hother, hfills⟩]
      exact hnames hnone
  · intro hholds front spec back heq below hlater
    have hget := hholds front spec back heq below hlater
    have hspec : spec ∈ snapshots := heq ▸ List.mem_append_cons_self
    constructor
    · intro front' last back' below' heq' hplace hsome hback
      rw [hplace] at hback hget
      rw [← hcreated.filled heq' hsome hback, hget]
    · intro hnone other hother hle
      rw [hnone] at hget
      have hne : spec.names ++ below ≠ [] := by simp [hcreated.names spec hspec]
      refine (hcreated.unfilled hne fun other hother hfills => ?_).mp hget other hother hle
      have hsome := hcreated.isSome_of_fills hother hfills
      rw [hget] at hsome
      cases hsome

end Created

end

/-! ## Putting back -/

section

variable {C : Type} [DecidableEq C] {root : List String} {disk created later disk' disk'' : Disk C}
  {snapshots front back : List SnapshotSource} {spec : SnapshotSource}

omit [DecidableEq C] in
/-- The disk without what stands at a source. -/
theorem get_emptied (source path : List String) :
    (if disk'.get source = none then disk' else disk'.remove source).get path
      = if source <+: path then none else disk'.get path := by
  split
  · rename_i hnone
    split
    · rename_i hle
      cases hpath : disk'.get path with
      | none => rfl
      | some node =>
        have hsome : (disk'.get path).isSome := by rw [hpath]; rfl
        by_cases hsame : source = path
        · rw [← hsame, hnone] at hpath
          cases hpath
        · have hdir := Disk.get_top hsome hle hsame
          rw [hnone] at hdir
          cases hdir
    · rfl
  · exact Disk.get_remove disk' source path

theorem restoreSource_eq_ok : restoreSource root disk' spec = .ok disk'' ↔ (disk'.get (root ++ spec.names)).isSome
    ∧ (if disk'.get spec.source = none then disk' else disk'.remove spec.source).copyTree (root ++ spec.names)
      spec.source = some disk'' := by
  unfold restoreSource
  split
  · rename_i hnone
    constructor
    · intro h
      cases h
    · rintro ⟨hsome, -⟩
      rw [hnone] at hsome
      cases hsome
  · rename_i hsome
    rw [orIo_eq_ok]
    exact (and_iff_right (Option.isSome_iff_ne_none.mpr hsome)).symm

/-- What a source is put back to. -/
theorem get_restoreSource (hapart : SourcesApart root snapshots) (hspec : spec ∈ snapshots)
    (h : restoreSource root disk' spec = .ok disk'') (path : List String) :
    disk''.get path = if spec.source <+: path then disk'.get (root ++ (spec.names ++ path.drop spec.source.length))
      else if path <+: spec.source then (disk'.get path).or (some .dir) else disk'.get path := by
  rw [Disk.get_copyTree (restoreSource_eq_ok.mp h).2, Disk.overlay, Disk.tree, get_emptied, get_emptied]
  by_cases hle : spec.source <+: path
  · have hbackup : ¬ spec.source <+: root ++ spec.names ++ path.drop spec.source.length := by
      intro hsource
      refine hapart.not_prefix hspec hsource ?_
      rw [List.append_assoc]
      exact List.prefix_append _ _
    rw [if_pos hle, if_pos hle, if_neg hbackup, if_pos hle, Option.or_none, List.append_assoc]
  · rw [if_neg hle, if_neg hle, if_neg hle]

/-- Above a source that was put back there was no file. -/
theorem restoreSource_tops (hapart : SourcesApart root snapshots) (hspec : spec ∈ snapshots)
    (h : restoreSource root disk' spec = .ok disk'') {top : List String} (htop : top <+: spec.source)
    (hne : top ≠ spec.source) : disk'.get top = none ∨ disk'.get top = some .dir := by
  have hsource : (disk''.get spec.source).isSome := by
    rw [get_restoreSource hapart hspec h, if_pos (List.prefix_refl _), List.drop_length, List.append_nil]
    exact (restoreSource_eq_ok.mp h).1
  have hdir := Disk.get_top hsource htop hne
  have hnot : ¬ spec.source <+: top := fun hle =>
    hne (htop.eq_of_length (Nat.le_antisymm htop.length_le hle.length_le))
  rw [get_restoreSource hapart hspec h, if_neg hnot, if_pos htop] at hdir
  cases hget : disk'.get top with
  | none => exact .inl rfl
  | some node =>
    rw [hget] at hdir
    exact .inr hdir

/-- A source can be put back below directories. -/
theorem exists_restoreSource (hapart : SourcesApart root snapshots) (hspec : spec ∈ snapshots)
    (hbackup : (disk'.get (root ++ spec.names)).isSome)
    (htops : ∀ top, top <+: spec.source → top ≠ spec.source → disk'.get top = some .dir) :
    ∃ disk'', restoreSource root disk' spec = .ok disk''
      ∧ ∀ path, disk''.get path = if spec.source <+: path
        then disk'.get (root ++ (spec.names ++ path.drop spec.source.length)) else disk'.get path := by
  have hcopy : ∃ disk'', (if disk'.get spec.source = none then disk' else disk'.remove spec.source).copyTree
      (root ++ spec.names) spec.source = some disk'' := by
    apply Disk.exists_copyTree
    · exact fun hle => (hapart spec hspec).1 ((List.prefix_append _ _).trans hle)
    · rw [get_emptied, if_neg fun hle => hapart.not_prefix hspec hle (List.prefix_append _ _)]
      exact hbackup
    · intro top htop hne
      rw [get_emptied, htops top htop hne]
      split
      · exact .inl rfl
      · exact .inr rfl
    · intro below
      rw [get_emptied, if_pos (List.prefix_append _ _)]
  obtain ⟨disk'', hdisk''⟩ := hcopy
  have hok := restoreSource_eq_ok.mpr ⟨hbackup, hdisk''⟩
  refine ⟨disk'', hok, fun path => ?_⟩
  rw [get_restoreSource hapart hspec hok]
  by_cases hle : spec.source <+: path
  · rw [if_pos hle, if_pos hle]
  · rw [if_neg hle, if_neg hle]
    split
    · rename_i habove
      have hne : path ≠ spec.source := by
        rintro rfl
        exact hle (List.prefix_refl _)
      rw [htops path habove hne]
      rfl
    · rfl

/-- How far the sources are put back. -/
structure SourcesRestored (root : List String) (snapshots : List SnapshotSource) (created : Disk C)
    (front : List SnapshotSource) (disk' : Disk C) : Prop where
  beside : SameBeside snapshots created disk'
  back : ∀ path, (∃ spec ∈ front, spec.source <+: path) → ∃ earlier spec between below,
    front = earlier ++ spec :: between ∧ path = spec.source ++ below ∧ (∀ other ∈ between, ¬ other.source <+: path)
      ∧ disk'.get path = created.get (root ++ (spec.names ++ below))

/-- Where outer sources come first, every source can be put back. -/
theorem exists_restored (hcreated : Created root snapshots disk created) (houter : OuterFirst snapshots)
    (hlater : SameBeside snapshots created later) (heq : snapshots = front ++ back) :
    ∃ mid, restoreSnapshot root later front = .ok mid ∧ SourcesRestored root snapshots created front mid := by
  induction front using List.reverseRecOn generalizing back with
  | nil => exact ⟨later, rfl, hlater, fun _ ⟨_, hmem, _⟩ => nomatch hmem⟩
  | append_singleton front spec ih =>
    rw [List.append_assoc, List.singleton_append] at heq
    obtain ⟨mid, hmid, hrestored⟩ := ih heq
    have hspec : spec ∈ snapshots := heq ▸ List.mem_append_cons_self
    have hsource : (disk.get spec.source).isSome := hcreated.exists_source spec hspec
    have hsource' : (created.get spec.source).isSome := by
      rw [hcreated.same spec hspec _ (List.prefix_refl _)]
      exact hsource
    have hplace : ∀ place, mid.get (root ++ place) = created.get (root ++ place) := by
      intro place
      refine hrestored.beside _ fun other hother hle => ?_
      exact hcreated.apart.not_prefix hother hle (List.prefix_append _ _)
    have htops : ∀ top, top <+: spec.source → top ≠ spec.source → mid.get top = some .dir := by
      intro top htop hne
      by_cases hcovered : ∃ outer ∈ snapshots, outer.source <+: top
      · obtain ⟨outer, houtermem, hle⟩ := hcovered
        have hother : outer.source ≠ spec.source := by
          intro hsame
          exact hne (htop.eq_of_length (Nat.le_antisymm htop.length_le (hsame ▸ hle.length_le)))
        obtain ⟨earlier, hearlier, hle'⟩ := houter front spec back heq outer houtermem (hle.trans htop) hother
        obtain ⟨before, first, between, below, hfront, rfl, -, hget⟩ := hrestored.back top ⟨earlier, hearlier, hle'.trans hle⟩
        have hfirst : first ∈ snapshots := by
          rw [heq, hfront]
          exact List.mem_append_left _ (List.mem_append_right _ List.mem_cons_self)
        rw [hget]
        exact hcreated.dirs hfirst (Disk.get_top hsource htop hne)
      · rw [hrestored.beside top fun other hother hle => hcovered ⟨other, hother, hle⟩]
        exact Disk.get_top hsource' htop hne
    have hbackup : (mid.get (root ++ spec.names)).isSome := by
      rw [hplace]
      refine hcreated.isSome_of_fills hspec ⟨[], (List.append_nil _).symm, ?_⟩
      rwa [List.append_nil]
    obtain ⟨next, hnext, hget⟩ := exists_restoreSource hcreated.apart hspec hbackup htops
    refine ⟨next, foldlM_append_ok.mpr ⟨mid, hmid, foldlM_cons_ok.mpr ⟨next, hnext, rfl⟩⟩, ?_, ?_⟩
    · intro path hpath
      rw [hget, if_neg (hpath spec hspec), hrestored.beside path hpath]
    · rintro path ⟨covering, hcovering, hle⟩
      by_cases hpath : spec.source <+: path
      · obtain ⟨below, rfl⟩ := hpath
        refine ⟨front, spec, [], below, rfl, rfl, fun _ hmem => absurd hmem List.not_mem_nil, ?_⟩
        rw [hget, if_pos (List.prefix_append _ _), List.drop_left, hplace]
      · have hfront : covering ∈ front := by
          rcases List.mem_append.mp hcovering with hmem | hmem
          · exact hmem
          · rw [List.mem_singleton] at hmem
            exact absurd (hmem ▸ hle) hpath
        obtain ⟨before, first, between, below, hsplit, hsame, hbetween, hvalue⟩ := hrestored.back path ⟨covering, hfront, hle⟩
        refine ⟨before, first, between ++ [spec], below, by rw [hsplit, List.append_assoc]; rfl, hsame, ?_, ?_⟩
        · intro other hother
          rcases List.mem_append.mp hother with hmem | hmem
          · exact hbetween other hmem
          · rw [List.mem_singleton.mp hmem]
            exact hpath
        · rw [hget, if_neg hpath, hvalue]

/-- What all sources are put back to. -/
theorem exists_restoreSnapshot (hcreated : Created root snapshots disk created) (houter : OuterFirst snapshots)
    (hholds : HoldsPlaces root snapshots disk created) (hlater : SameBeside snapshots created later) :
    ∃ restored, restoreSnapshot root later snapshots = .ok restored ∧ SameBeside snapshots created restored
      ∧ BroughtBack snapshots disk restored := by
  obtain ⟨restored, hok, hrestored⟩ := exists_restored hcreated houter hlater (List.append_nil snapshots).symm
  refine ⟨restored, hok, hrestored.beside, fun spec hspec path hpath => ?_⟩
  obtain ⟨earlier, last, between, below, heq, rfl, hbetween, hget⟩ := hrestored.back path ⟨spec, hspec, hpath⟩
  rw [hget, hholds earlier last between heq below hbetween]

/-- Where a restore was interrupted, only contents of sources have changed. -/
theorem sameBeside_of_interrupted (hcreated : Created root snapshots disk created) (houter : OuterFirst snapshots)
    (hlater : SameBeside snapshots created later) {left : Disk C} (h : Interrupted root snapshots later left) :
    SameBeside snapshots created left := by
  obtain ⟨front, spec, back, mid, heq, hok, hleft⟩ := h
  obtain ⟨mid', hok', hrestored⟩ := exists_restored hcreated houter hlater heq
  have hmid : mid = mid' := Except.ok.inj (hok.symm.trans hok')
  subst hmid
  have hspec : spec ∈ snapshots := heq ▸ List.mem_append_cons_self
  intro path hpath
  rcases hleft path (hpath spec hspec) with hsame | ⟨hle, hnone, -⟩
  · rw [hsame, hrestored.beside path hpath]
  · -- above a source of the snapshot nothing is missing
    have hsource : (created.get spec.source).isSome := by
      rw [hcreated.same spec hspec _ (List.prefix_refl _)]
      exact hcreated.exists_source spec hspec
    have hne : path ≠ spec.source := by
      rintro rfl
      exact hpath spec hspec (List.prefix_refl _)
    have hdir := Disk.get_top hsource hle hne
    rw [← hrestored.beside path hpath, hnone] at hdir
    cases hdir

end

/-! ## Why nothing less is enough -/

section

variable {C : Type} [DecidableEq C] {root : List String} {disk created disk' disk'' : Disk C}
  {snapshots done : List SnapshotSource}

/-- What is not at or below a source that is put back stays. -/
theorem get_restore_of_isSome (hapart : SourcesApart root snapshots) (hdone : ∀ spec ∈ done, spec ∈ snapshots)
    (h : restoreSnapshot root disk' done = .ok disk'') {path : List String}
    (hpath : ∀ spec ∈ done, ¬ spec.source <+: path) (hsome : (disk'.get path).isSome) :
    disk''.get path = disk'.get path := by
  induction done generalizing disk' with
  | nil => rw [← Except.ok.inj h]
  | cons first rest ih =>
    obtain ⟨mid, hfirst, hrest⟩ := foldlM_cons_ok.mp h
    have hmid : mid.get path = disk'.get path := by
      rw [get_restoreSource hapart (hdone first List.mem_cons_self) hfirst, if_neg (hpath first List.mem_cons_self)]
      split
      · obtain ⟨node, hnode⟩ := Option.isSome_iff_exists.mp hsome
        rw [hnode]
        rfl
      · rfl
    rw [ih (fun spec hspec => hdone spec (List.mem_cons_of_mem _ hspec)) hrest
      (fun spec hspec => hpath spec (List.mem_cons_of_mem _ hspec)) (by rw [hmid]; exact hsome), hmid]

/-- The snapshot directory stays. -/
theorem get_restore_place (hapart : SourcesApart root snapshots) (hdone : ∀ spec ∈ done, spec ∈ snapshots)
    (h : restoreSnapshot root disk' done = .ok disk'') (place : List String) :
    disk''.get (root ++ place) = disk'.get (root ++ place) := by
  induction done generalizing disk' with
  | nil => rw [← Except.ok.inj h]
  | cons first rest ih =>
    obtain ⟨mid, hfirst, hrest⟩ := foldlM_cons_ok.mp h
    have hmem := hdone first List.mem_cons_self
    have hbelow : ¬ first.source <+: root ++ place := fun hle => hapart.not_prefix hmem hle (List.prefix_append _ _)
    have habove : ¬ root ++ place <+: first.source := fun hle =>
      (hapart first hmem).1 ((List.prefix_append _ _).trans hle)
    rw [ih (fun spec hspec => hdone spec (List.mem_cons_of_mem _ hspec)) hrest,
      get_restoreSource hapart hmem hfirst, if_neg hbelow, if_neg habove]

/-- A source that lies in one that is a file by then is not put back. -/
theorem outerFirst_of_restores [Inhabited C] (hcreated : Created root snapshots disk created)
    (h : RestoresSnapshot root snapshots disk created) : OuterFirst snapshots := by
  intro front spec back heq outer houter hle hne
  by_contra hearlier
  have hearlier' : ∀ earlier ∈ front, ¬ earlier.source <+: outer.source := fun earlier hmem hle =>
    hearlier ⟨earlier, hmem, hle⟩
  have hsource : (created.get outer.source).isSome := by
    rw [hcreated.same outer houter _ (List.prefix_refl _)]
    exact hcreated.exists_source outer houter
  -- the outer source becomes a file
  have hwrite : ∃ later, (created.remove outer.source).writeFile outer.source default = some later := by
    apply Disk.exists_writeFile
    · intro top htop hne
      have hnot : ¬ outer.source <+: top := fun hle =>
        hne (htop.eq_of_length (Nat.le_antisymm htop.length_le hle.length_le))
      rw [Disk.get_remove, if_neg hnot]
      exact Disk.get_top hsource htop hne
    · rw [Disk.get_remove, if_pos (List.prefix_refl _)]
      exact (Option.some_ne_none _).symm
  obtain ⟨later, hlater⟩ := hwrite
  have hbeside : SameBeside snapshots created later := by
    intro path hpath
    have hnot := hpath outer houter
    rw [(Disk.get_writeFile hlater path).1, if_neg, Disk.get_remove, if_neg hnot]
    rintro rfl
    exact hnot (List.prefix_refl _)
  have hfile : later.get outer.source = some (.file default) := by
    rw [(Disk.get_writeFile hlater _).1, if_pos rfl]
  obtain ⟨restored, hok, -⟩ := h.restores later hbeside
  rw [heq] at hok
  obtain ⟨mid, hfront, hrest⟩ := foldlM_append_ok.mp hok
  obtain ⟨mid', hspec, -⟩ := foldlM_cons_ok.mp hrest
  have hfront' : ∀ spec ∈ front, spec ∈ snapshots := fun spec hmem => by
    rw [heq]
    exact List.mem_append_left _ hmem
  have hmem : spec ∈ snapshots := heq ▸ List.mem_append_cons_self
  have hmid := get_restore_of_isSome hcreated.apart hfront' hfront hearlier' (by rw [hfile]; rfl)
  rw [hfile] at hmid
  rcases restoreSource_tops hcreated.apart hmem hspec hle hne with hnone | hdir
  · rw [hnone] at hmid
    cases hmid
  · rw [hdir] at hmid
    cases hmid

theorem holdsPlaces_of_restores (hcreated : Created root snapshots disk created)
    (h : RestoresSnapshot root snapshots disk created) : HoldsPlaces root snapshots disk created := by
  intro front spec back heq below hlater
  have hmem : spec ∈ snapshots := heq ▸ List.mem_append_cons_self
  have hfront' : ∀ spec ∈ front, spec ∈ snapshots := fun spec hmem => by
    rw [heq]
    exact List.mem_append_left _ hmem
  have hback' : ∀ spec ∈ back, spec ∈ snapshots := fun spec hmem => by
    rw [heq]
    exact List.mem_append_right _ (List.mem_cons_of_mem _ hmem)
  cases hplace : created.get (root ++ (spec.names ++ below)) with
  | none =>
    cases hsource : disk.get (spec.source ++ below) with
    | none => rfl
    | some node =>
      have hfills : FillsPlace disk spec (spec.names ++ below) := ⟨below, rfl, by rw [hsource]; rfl⟩
      have hsome := hcreated.isSome_of_fills hmem hfills
      rw [hplace] at hsome
      cases hsome
  | some node =>
    obtain ⟨restored, hok, hbrought⟩ := h.restores created fun _ _ => rfl
    rw [← hbrought spec hmem _ (List.prefix_append _ _)]
    rw [heq] at hok
    obtain ⟨mid, hfront, hrest⟩ := foldlM_append_ok.mp hok
    obtain ⟨mid', hspec, hback⟩ := foldlM_cons_ok.mp hrest
    have hmid' : mid'.get (spec.source ++ below) = some node := by
      rw [get_restoreSource hcreated.apart hmem hspec, if_pos (List.prefix_append _ _), List.drop_left,
        get_restore_place hcreated.apart hfront' hfront, hplace]
    rw [get_restore_of_isSome hcreated.apart hback' hback hlater (by rw [hmid']; rfl), hmid']

omit [DecidableEq C] in
/-- Places are kept where no backup lies in another one's place. -/
theorem keepsPlaces_of_apart (hnames : ∀ spec ∈ snapshots, ∀ other ∈ snapshots, spec.names <+: other.names → spec = other)
    (hsources : ∀ spec ∈ snapshots, (disk.get spec.source).isSome) : KeepsPlaces disk snapshots := by
  intro front spec back heq below _
  have hmem : spec ∈ snapshots := heq ▸ List.mem_append_cons_self
  constructor
  · intro front' last back' below' heq' hplace _ _
    have hlast : last ∈ snapshots := heq' ▸ List.mem_append_cons_self
    have hboth : spec.names <+: last.names ∨ last.names <+: spec.names :=
      List.prefix_or_prefix_of_prefix (List.prefix_append _ below) (hplace ▸ List.prefix_append _ _)
    have hsame : spec = last := by
      rcases hboth with hle | hle
      · exact hnames spec hmem last hlast hle
      · exact (hnames last hlast spec hmem hle).symm
    subst hsame
    rw [List.append_cancel_left hplace]
  · intro hnone other hother hle
    have hsame := hnames spec hmem other hother ((List.prefix_append _ _).trans hle)
    subst hsame
    have hbelow : below = [] := by
      have hlength := hle.length_le
      rw [List.length_append] at hlength
      exact List.eq_nil_of_length_eq_zero (by omega)
    have hsome := hsources spec hmem
    rw [hbelow, List.append_nil] at hnone
    rw [hnone] at hsome
    cases hsome

/-- The sources are put back, whatever became of them, if none lies in the snapshot directory, outer sources come
first and each place keeps what the source has there; for sources outside of the snapshot directory, only then. -/
theorem restoresSnapshot_iff [Inhabited C] (h : createSnapshot root disk snapshots = .ok created) :
    (SourcesOutside root snapshots ∧ OuterFirst snapshots ∧ KeepsPlaces disk snapshots →
      RestoresSnapshot root snapshots disk created)
    ∧ (SourcesOutside root snapshots → RestoresSnapshot root snapshots disk created →
      OuterFirst snapshots ∧ KeepsPlaces disk snapshots) := by
  constructor
  · rintro ⟨houtside, houter, hkeeps⟩
    have hcreated := created_of_createSnapshot h houtside
    have hholds := hcreated.keepsPlaces_iff.mp hkeeps
    constructor
    · intro later hlater
      obtain ⟨restored, hok, -, hback⟩ := exists_restoreSnapshot hcreated houter hholds hlater
      exact ⟨restored, hok, hback⟩
    · intro later left hlater hinterrupted
      have hleft := sameBeside_of_interrupted hcreated houter hlater hinterrupted
      obtain ⟨restored, hok, hbeside, hback⟩ := exists_restoreSnapshot hcreated houter hholds hlater
      obtain ⟨restored', hok', hbeside', hback'⟩ := exists_restoreSnapshot hcreated houter hholds hleft
      refine ⟨restored, restored', hok, hok', fun path => ?_⟩
      by_cases hcovered : ∃ spec ∈ snapshots, spec.source <+: path
      · obtain ⟨spec, hspec, hle⟩ := hcovered
        rw [hback spec hspec path hle, hback' spec hspec path hle]
      · have hno : ∀ spec ∈ snapshots, ¬ spec.source <+: path := fun spec hspec hle => hcovered ⟨spec, hspec, hle⟩
        rw [hbeside path hno, hbeside' path hno]
  · intro houtside hrestores
    have hcreated := created_of_createSnapshot h houtside
    exact ⟨outerFirst_of_restores hcreated hrestores,
      hcreated.keepsPlaces_iff.mpr (holdsPlaces_of_restores hcreated hrestores)⟩

end

/-! ## Two databases -/

/-- A disk with two databases of a legacy stack. -/
def legacyDisk : Disk String where
  entries := [([], .dir), (["legacy"], .dir), (["legacy", "accounts.db"], .file "accounts"),
    (["legacy", "settings.db"], .file "settings")]
  rooted := by decide +kernel

def legacySnapshotRoot : List String := ["data", "migration", "cutover-snapshot"]

/-- Both have the same backup name. -/
def sharedState : List SnapshotSource :=
  [⟨["legacy", "accounts.db"], [.normal "state"]⟩, ⟨["legacy", "settings.db"], [.normal "state"]⟩]

/-- Each has its own. -/
def ownState : List SnapshotSource :=
  [⟨["legacy", "accounts.db"], [.normal "accounts"]⟩, ⟨["legacy", "settings.db"], [.normal "settings"]⟩]

theorem restoresSnapshot_ownState : ∃ created, createSnapshot legacySnapshotRoot legacyDisk ownState = .ok created
    ∧ RestoresSnapshot legacySnapshotRoot ownState legacyDisk created := by
  have hruns : (createSnapshot legacySnapshotRoot legacyDisk ownState).toBool = true := by decide +kernel
  cases hcreate : createSnapshot legacySnapshotRoot legacyDisk ownState with
  | error error =>
    rw [hcreate] at hruns
    cases hruns
  | ok created =>
    have hnested : ∀ spec ∈ ownState, ∀ outer ∈ ownState, outer.source <+: spec.source → outer.source = spec.source := by
      decide +kernel
    have houtside : ∀ spec ∈ ownState, ¬ legacySnapshotRoot <+: spec.source := by decide +kernel
    refine ⟨created, rfl, (restoresSnapshot_iff hcreate).1 ⟨houtside, ?_, ?_⟩⟩
    · intro front spec back heq outer houter hle hne
      have hmem : spec ∈ ownState := heq ▸ List.mem_append_cons_self
      exact absurd (hnested spec hmem outer houter hle) hne
    · exact keepsPlaces_of_apart (by decide +kernel) (by decide +kernel)

/-- The accounts are put back as the settings. -/
theorem not_restoresSnapshot_sharedState :
    ∃ created, createSnapshot legacySnapshotRoot legacyDisk sharedState = .ok created
      ∧ ¬ RestoresSnapshot legacySnapshotRoot sharedState legacyDisk created := by
  have hrun : ((createSnapshot legacySnapshotRoot legacyDisk sharedState).bind fun created =>
      (restoreSnapshot legacySnapshotRoot created sharedState).map
        (Disk.get · ["legacy", "accounts.db"])) = .ok (some (.file "settings")) := by decide +kernel
  cases hcreate : createSnapshot legacySnapshotRoot legacyDisk sharedState with
  | error error =>
    rw [hcreate] at hrun
    cases hrun
  | ok created =>
    refine ⟨created, rfl, fun h => ?_⟩
    obtain ⟨restored, hok, hback⟩ := h.restores created fun _ _ => rfl
    have haccounts := hback _ List.mem_cons_self _ (List.prefix_refl _)
    rw [hcreate] at hrun
    have hget : (restoreSnapshot legacySnapshotRoot created sharedState).map
        (Disk.get · ["legacy", "accounts.db"]) = .ok (some (.file "settings")) := hrun
    rw [hok] at hget
    have hsettings := Except.ok.inj hget
    exact absurd (haccounts.symm.trans hsettings) (by decide +kernel)

end CodexRouter
