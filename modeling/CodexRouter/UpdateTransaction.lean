/-
# Updates are transactions

What is known of the world while an update goes on: the router root holds the paths that were moved
as the installation has them, and elsewhere the files of the staged release (`Overlaid`); the backup
holds the rest of the installation (`Drained`).  A move keeps both (`overlaid_preserve`), taking a
move back does too (`overlaid_restore`), so a rollback from any point of the moves restores the old
tree, and an update that ends well has kept everything that the old manifest does not manage.

One way out of the loop of moves does not roll back.  `transactional_iff` says when it is taken.
-/
import CodexRouter.Update

namespace CodexRouter

/-! ## The paths that are preserved -/

/-- No managed path is at the path or below it. -/
def Unmanaged (managed : List (List String)) (path : List String) : Prop := ∀ item ∈ managed, ¬ path <+: item

section

variable {C : Type} {managed : List (List String)} {path other : List String}

theorem isUnmanaged_iff : isUnmanaged managed path = true ↔ Unmanaged managed path := by
  simp only [isUnmanaged, Bool.and_eq_true, Bool.not_eq_true', List.any_eq_false, decide_eq_true_eq, Unmanaged]
  constructor
  · rintro ⟨hsame, hbelow⟩ item hitem hpfx
    by_cases heq : path = item
    · exact hsame item hitem heq.symm
    · exact hbelow item hitem ⟨hpfx, heq⟩
  · intro h
    refine ⟨?_, fun item hitem hbelow => h item hitem hbelow.1⟩
    rintro item hitem rfl
    exact h item hitem (List.prefix_refl item)

/-- What is below an unmanaged path is unmanaged. -/
theorem Unmanaged.below (h : Unmanaged managed path) (hpfx : path <+: other) : Unmanaged managed other :=
  fun item hitem hother => h item hitem (hpfx.trans hother)

theorem mem_visitAll {visit : List String → Except String (List (List String))} {l out : List (List String)}
    (h : visitAll visit l = .ok out) :
    (∀ p ∈ l, ∃ o, visit p = .ok o) ∧ ∀ q, q ∈ out ↔ ∃ p ∈ l, ∃ o, visit p = .ok o ∧ q ∈ o := by
  induction l generalizing out with
  | nil =>
    obtain rfl : out = [] := (Except.ok.inj h).symm
    simp
  | cons first rest ih =>
    rw [visitAll] at h
    cases hfirst : visit first with
    | error e =>
      rw [hfirst] at h
      cases h
    | ok o =>
      rw [hfirst] at h
      cases hrest : visitAll visit rest with
      | error e =>
        rw [hrest] at h
        cases h
      | ok o' =>
        rw [hrest] at h
        obtain rfl : out = o ++ o' := (Except.ok.inj h).symm
        obtain ⟨hall, hmem⟩ := ih hrest
        refine ⟨List.forall_mem_cons.mpr ⟨⟨o, hfirst⟩, hall⟩, ?_⟩
        intro q
        rw [List.mem_append, hmem, List.exists_mem_cons_iff]
        refine or_congr_left ⟨fun hq => ⟨o, hfirst, hq⟩, ?_⟩
        rintro ⟨o'', ho'', hq⟩
        rw [hfirst, Except.ok.injEq] at ho''
        rwa [ho'']

/-- The outputs have no doubles when those of two paths have nothing in common. -/
theorem nodup_visitAll {visit : List String → Except String (List (List String))} {l out : List (List String)}
    (h : visitAll visit l = .ok out) (hl : l.Nodup) (hnodup : ∀ p ∈ l, ∀ o, visit p = .ok o → o.Nodup)
    (hapart : ∀ p ∈ l, ∀ p' ∈ l, p ≠ p' → ∀ o o', visit p = .ok o → visit p' = .ok o' → ∀ q ∈ o, q ∉ o') :
    out.Nodup := by
  induction l generalizing out with
  | nil =>
    obtain rfl : out = [] := (Except.ok.inj h).symm
    exact List.nodup_nil
  | cons first rest ih =>
    rw [visitAll] at h
    cases hfirst : visit first with
    | error e =>
      rw [hfirst] at h
      cases h
    | ok o =>
      rw [hfirst] at h
      cases hrest : visitAll visit rest with
      | error e =>
        rw [hrest] at h
        cases h
      | ok o' =>
        rw [hrest] at h
        obtain rfl : out = o ++ o' := (Except.ok.inj h).symm
        rw [List.nodup_cons] at hl
        refine List.Nodup.append (hnodup first List.mem_cons_self o hfirst) (ih hrest hl.2 ?_ ?_) ?_
        · exact fun p hp => hnodup p (List.mem_cons_of_mem _ hp)
        · exact fun p hp p' hp' => hapart p (List.mem_cons_of_mem _ hp) p' (List.mem_cons_of_mem _ hp')
        · intro q hq hq'
          obtain ⟨p, hp, o'', hvisit, hmem⟩ := ((mem_visitAll hrest).2 q).mp hq'
          have hne : first ≠ p := fun heq => hl.1 (heq ▸ hp)
          exact hapart first List.mem_cons_self p (List.mem_cons_of_mem _ hp) hne o o'' hfirst hvisit q hq hmem

/-- The path is unmanaged, and from `top` on no path above it is. -/
structure Maximal (tree : DirTree C) (managed : List (List String)) (top path : List String) : Prop where
  mem : path ∈ tree.entries.paths
  pfx : top <+: path
  unmanaged : Unmanaged managed path
  above : ∀ other, top <+: other → other <+: path → other ≠ path → ¬ Unmanaged managed other

variable {tree : DirTree C}

theorem mem_children : other ∈ tree.children path ↔ ∃ name, other = path ++ [name] ∧ other ∈ tree.entries.paths := by
  simp only [DirTree.children, List.mem_filter, decide_eq_true_eq, ne_eq]
  constructor
  · rintro ⟨hmem, hne, rfl⟩
    exact ⟨other.getLast hne, (List.dropLast_append_getLast hne).symm, hmem⟩
  · rintro ⟨name, rfl, hmem⟩
    exact ⟨hmem, by simp, by simp⟩

/-- An entry below a path is below a child of the path. -/
theorem exists_child (hmem : other ∈ tree.entries.paths) (hpfx : path <+: other) (hne : other ≠ path) :
    ∃ child ∈ tree.children path, child <+: other := by
  obtain ⟨rest, rfl⟩ := hpfx
  cases rest with
  | nil => exact absurd (List.append_nil path) hne
  | cons name rest =>
    have hchild : path ++ [name] <+: path ++ name :: rest := ⟨rest, by simp⟩
    refine ⟨path ++ [name], mem_children.mpr ⟨name, rfl, ?_⟩, hchild⟩
    by_cases heq : path ++ [name] = path ++ name :: rest
    · rw [heq]
      exact hmem
    · exact FileTree.mem_paths_of_get (tree.get_of_prefix hmem hchild heq)

/-- Below a managed path the maximal unmanaged paths are those below its children. -/
theorem maximal_child_iff (hmanaged : ¬ Unmanaged managed path) :
    Maximal tree managed path other ↔ ∃ child ∈ tree.children path, Maximal tree managed child other := by
  constructor
  · rintro ⟨hmem, hpfx, hunmanaged, habove⟩
    have hne : other ≠ path := fun heq => hmanaged (heq ▸ hunmanaged)
    obtain ⟨child, hchild, hbelow⟩ := exists_child hmem hpfx hne
    obtain ⟨name, rfl, -⟩ := mem_children.mp hchild
    exact ⟨_, hchild, hmem, hbelow, hunmanaged, fun r hr => habove r ((List.prefix_append _ _).trans hr)⟩
  · rintro ⟨child, hchild, hmem, hbelow, hunmanaged, habove⟩
    obtain ⟨name, rfl, -⟩ := mem_children.mp hchild
    refine ⟨hmem, (List.prefix_append _ _).trans hbelow, hunmanaged, ?_⟩
    intro r hr hother hne
    by_cases heq : r = path
    · rw [heq]
      exact hmanaged
    · -- `r` is longer than `path`, so the child is above it
      have hlength : (path ++ [name]).length ≤ r.length := by
        rw [List.length_append, List.length_singleton]
        exact lt_of_le_of_ne hr.length_le fun hlen => heq (hr.eq_of_length hlen).symm
      exact habove r (List.prefix_of_prefix_length_le hbelow hother hlength) hother hne

/-- What a visit gives. -/
theorem mem_visit {depth : ℕ} {out : List (List String)} (h : visit tree managed depth path = .ok out)
    (hpath : path ∈ tree.entries.paths) (hdepth : tree.depth < path.length + depth) :
    out.Nodup ∧ ∀ q, q ∈ out ↔ Maximal tree managed path q := by
  induction depth generalizing path out with
  | zero => exact absurd (tree.length_le_depth hpath) (by omega)
  | succ depth ih =>
    rw [visit] at h
    obtain ⟨node, hnode⟩ := FileTree.mem_paths_iff.mp hpath
    rw [hnode] at h
    have hnode' : (if isUnmanaged managed path then .ok [path]
        else if node.isDir then visitAll (visit tree managed depth) (tree.children path) else .ok [])
          = (.ok out : Except String (List (List String))) := by
      cases node with
      | link target => cases h
      | _ => exact h
    by_cases hunmanaged : Unmanaged managed path
    · rw [if_pos (isUnmanaged_iff.mpr hunmanaged)] at hnode'
      obtain rfl : out = [path] := (Except.ok.inj hnode').symm
      refine ⟨List.nodup_singleton _, ?_⟩
      intro q
      rw [List.mem_singleton]
      constructor
      · rintro rfl
        refine ⟨hpath, List.prefix_refl _, hunmanaged, ?_⟩
        intro r hr hother hne
        exact absurd (hother.eq_of_length (le_antisymm hother.length_le hr.length_le)) hne
      · intro hq
        by_contra hne
        exact hq.above path (List.prefix_refl _) hq.pfx (Ne.symm hne) hunmanaged
    · rw [if_neg (fun htrue => hunmanaged (isUnmanaged_iff.mp htrue))] at hnode'
      cases hdir : node.isDir with
      | false =>
        rw [hdir, if_neg Bool.false_ne_true] at hnode'
        obtain rfl : out = [] := (Except.ok.inj hnode').symm
        refine ⟨List.nodup_nil, ?_⟩
        intro q
        refine ⟨fun hq => absurd hq List.not_mem_nil, ?_⟩
        intro hq
        have hne : path ≠ q := fun heq => hunmanaged (heq ▸ hq.unmanaged)
        rw [tree.get_of_prefix hq.mem hq.pfx hne, Option.some.injEq] at hnode
        rw [← hnode] at hdir
        cases hdir
      | true =>
        rw [hdir, if_pos rfl] at hnode'
        have hlength : ∀ child ∈ tree.children path, child ∈ tree.entries.paths
            ∧ child.length = path.length + 1 := by
          intro child hchild
          obtain ⟨name, rfl, hmem⟩ := mem_children.mp hchild
          exact ⟨hmem, by simp⟩
        have hchildren : ∀ child ∈ tree.children path, ∀ o, visit tree managed depth child = .ok o →
            o.Nodup ∧ ∀ q, q ∈ o ↔ Maximal tree managed child q := by
          intro child hchild o ho
          obtain ⟨hmem, hlen⟩ := hlength child hchild
          exact ih ho hmem (by omega)
        refine ⟨nodup_visitAll hnode' (tree.nodup.filter _) (fun child hchild o ho => (hchildren child hchild o ho).1) ?_,
          ?_⟩
        · intro child hchild child' hchild' hne o o' ho ho' q hq hq'
          have hpfx := (((hchildren child hchild o ho).2 q).mp hq).pfx
          have hpfx' := (((hchildren child' hchild' o' ho').2 q).mp hq').pfx
          have hlen : child.length = child'.length := by
            rw [(hlength child hchild).2, (hlength child' hchild').2]
          exact hne ((List.prefix_of_prefix_length_le hpfx hpfx' hlen.le).eq_of_length hlen)
        · intro q
          obtain ⟨hall, hmem⟩ := mem_visitAll hnode'
          rw [hmem, maximal_child_iff hunmanaged]
          constructor
          · rintro ⟨child, hchild, o, ho, hq⟩
            exact ⟨child, hchild, ((hchildren child hchild o ho).2 q).mp hq⟩
          · rintro ⟨child, hchild, hq⟩
            obtain ⟨o, ho⟩ := hall child hchild
            exact ⟨child, hchild, o, ho, ((hchildren child hchild o ho).2 q).mpr hq⟩

/-- An unmanaged entry is at or below a maximal one. -/
theorem exists_maximal {top : List String} (hmem : path ∈ tree.entries.paths) (hpfx : top <+: path)
    (hunmanaged : Unmanaged managed path) : ∃ r, Maximal tree managed top r ∧ r <+: path := by
  induction hlen : path.length using Nat.strong_induction_on generalizing path with
  | _ n ih =>
    by_cases habove : ∃ other, top <+: other ∧ other <+: path ∧ other ≠ path ∧ Unmanaged managed other
    · obtain ⟨other, htop, hother, hne, hfree⟩ := habove
      have hlt : other.length < n := by
        rw [← hlen]
        exact lt_of_le_of_ne hother.length_le fun heq => hne (hother.eq_of_length heq)
      have hthere := FileTree.mem_paths_of_get (tree.get_of_prefix hmem hother hne)
      obtain ⟨r, hr, hbelow⟩ := ih other.length hlt hthere htop hfree rfl
      exact ⟨r, hr, hbelow.trans hother⟩
    · refine ⟨path, ⟨hmem, hpfx, hunmanaged, ?_⟩, List.prefix_refl _⟩
      intro other htop hother hne hfree
      exact habove ⟨other, htop, hother, hne, hfree⟩

end

/-! ## The plan -/

/-- What is known of the paths that are preserved. -/
structure UpdatePlan {C : Type} (installed staged : DirTree C) (managed preserve : List (List String)) : Prop where
  mem_iff : ∀ path, path ∈ preserve ↔ ∃ child ∈ installed.children [], Maximal installed managed child path
  nodup : preserve.Nodup
  apart : ∀ path ∈ preserve, ∀ other node, staged.entries.get other = some node → node ≠ .dir →
    ¬ path <+: other ∧ ¬ other <+: path

namespace UpdatePlan

variable {C : Type} {installed staged : DirTree C} {managed preserve : List (List String)} {path other : List String}
  (plan : UpdatePlan installed staged managed preserve)

include plan

theorem mem_paths (h : path ∈ preserve) : path ∈ installed.entries.paths := by
  obtain ⟨child, -, hpath⟩ := (plan.mem_iff path).mp h
  exact hpath.mem

theorem ne_nil (h : path ∈ preserve) : path ≠ [] := by
  obtain ⟨child, hchild, hpath⟩ := (plan.mem_iff path).mp h
  obtain ⟨name, rfl, -⟩ := mem_children.mp hchild
  rintro rfl
  simpa using hpath.pfx

theorem unmanaged (h : path ∈ preserve) : Unmanaged managed path := by
  obtain ⟨child, -, hpath⟩ := (plan.mem_iff path).mp h
  exact hpath.unmanaged

/-- No preserved path is below another. -/
theorem eq_of_prefix (h : path ∈ preserve) (hother : other ∈ preserve) (hpfx : path <+: other) : path = other := by
  obtain ⟨child, hchild, hpath⟩ := (plan.mem_iff path).mp h
  obtain ⟨child', hchild', hpath'⟩ := (plan.mem_iff other).mp hother
  have hlen : child.length = child'.length := by
    obtain ⟨name, rfl, -⟩ := mem_children.mp hchild
    obtain ⟨name', rfl, -⟩ := mem_children.mp hchild'
    rfl
  have hsame : child = child' :=
    (List.prefix_of_prefix_length_le (hpath.pfx.trans hpfx) hpath'.pfx hlen.le).eq_of_length hlen
  by_contra hne
  exact hpath'.above path (hsame ▸ hpath.pfx) hpfx hne hpath.unmanaged

/-- Preserved paths above one place are one path. -/
theorem eq_of_above (h : path ∈ preserve) (hother : other ∈ preserve) {place : List String} (hpath : path <+: place)
    (hpath' : other <+: place) : path = other := by
  rcases le_total path.length other.length with hle | hle
  · exact plan.eq_of_prefix h hother (List.prefix_of_prefix_length_le hpath hpath' hle)
  · exact (plan.eq_of_prefix hother h (List.prefix_of_prefix_length_le hpath' hpath hle)).symm

/-- Everything unmanaged is preserved. -/
theorem exists_above (hmem : other ∈ installed.entries.paths) (hne : other ≠ []) (h : Unmanaged managed other) :
    ∃ path ∈ preserve, path <+: other := by
  obtain ⟨child, hchild, hpfx⟩ := exists_child hmem (List.nil_prefix) hne
  obtain ⟨path, hpath, hbelow⟩ := exists_maximal hmem hpfx h
  exact ⟨path, (plan.mem_iff path).mpr ⟨child, hchild, hpath⟩, hbelow⟩

/-- The installation has directories above a preserved path. -/
theorem get_above (h : path ∈ preserve) (hpfx : other <+: path.dropLast) :
    installed.entries.get other = some .dir := by
  refine installed.get_of_prefix (plan.mem_paths h) (hpfx.trans (List.dropLast_prefix path)) ?_
  rintro rfl
  have hlen := hpfx.length_le
  rw [List.length_dropLast] at hlen
  have hpos := List.length_pos_iff.mpr (plan.ne_nil h)
  omega

/-- A preserved path is not above the parent of another or of itself. -/
theorem not_above (h : path ∈ preserve) (hother : other ∈ preserve) : ¬ path <+: other.dropLast := by
  intro hpfx
  obtain rfl := plan.eq_of_prefix h hother (hpfx.trans (List.dropLast_prefix other))
  have hlen := hpfx.length_le
  rw [List.length_dropLast] at hlen
  have hpos := List.length_pos_iff.mpr (plan.ne_nil h)
  omega

end UpdatePlan

section

variable {C : Type} {libs : ReleaseLibs C} {fails : UpdateStep → Bool} {installed staged : DirTree C}
  {tree : FileTree C} {preserve : List (List String)}

theorem ok_of_readWith {α : Type} {step : UpdateStep} {result : Except String α} {a : α}
    (h : readWith fails step result = .ok a) : result = .ok a := by
  rw [readWith] at h
  split at h
  · cases h
  · exact h

/-- The loop over the manifest goes through the paths of `managed_paths`. -/
theorem expected_of_checkReleaseFiles {entries : List ReleaseManifestEntry} {before expected : List (List String)}
    (h : checkReleaseFiles libs tree before entries = .ok expected) :
    ∃ paths, safeManifestPaths entries = .ok paths ∧ expected = before ++ paths := by
  induction entries generalizing before with
  | nil => exact ⟨[], rfl, by rw [List.append_nil, Except.ok.inj h]⟩
  | cons entry rest ih =>
    rw [checkReleaseFiles] at h
    split at h
    · cases h
    rename_i path hpath
    split at h
    · cases h
    split at h
    · cases h
    obtain ⟨paths, hpaths, rfl⟩ := ih h
    refine ⟨path :: paths, ?_, by simp⟩
    rw [safeManifestPaths, hpath, hpaths]
    rfl

/-- In a staged release everything but directories is managed. -/
theorem mem_managed_of_verified (h : verifyReleaseRoot libs tree true = .ok ()) {managed : List (List String)}
    (hmanaged : managedPaths libs tree = .ok managed) {path : List String} {node : FileNode C}
    (hget : tree.get path = some node) (hnode : node ≠ .dir) : path ∈ managed := by
  rw [verifyReleaseRoot] at h
  rw [managedPaths] at hmanaged
  split at h
  · cases h
  rename_i entries hentries
  rw [hentries] at hmanaged
  split at h
  · cases h
  split at h
  · cases h
  rename_i expected hexpected
  split at h
  · cases h
  rw [Bool.not_true, if_neg Bool.false_ne_true] at h
  split at h
  · cases h
  rename_i actual hactual
  obtain ⟨paths, hpaths, heq⟩ := expected_of_checkReleaseFiles hexpected
  rw [List.nil_append] at heq
  subst heq
  dsimp only at hmanaged
  rw [hpaths] at hmanaged
  obtain rfl : managed = manifestPath :: expected := (Except.ok.inj hmanaged).symm
  have hnone : (actual.filter (· ≠ manifestPath)).filter (· ∉ expected) = [] := by
    dsimp only at h
    split at h
    · cases h
    · rename_i hnone
      have hempty := (List.append_eq_nil_iff.mp (List.head?_eq_none_iff.mp hnone)).1
      have hlength := congrArg List.length hempty
      rw [List.length_insertionSort, List.length_nil] at hlength
      exact List.length_eq_zero_iff.mp hlength
  have hmem : (path, node) ∈ tree := by
    rw [FileTree.get, List.lookup_eq_some_iff] at hget
    obtain ⟨before, after, rfl, -⟩ := hget
    simp
  rw [collectFiles] at hactual
  split at hactual
  · cases hactual
  rename_i hlinks
  have hfile : path ∈ actual := by
    rw [← Except.ok.inj hactual, List.mem_map]
    refine ⟨(path, node), List.mem_filter.mpr ⟨hmem, ?_⟩, rfl⟩
    cases node with
    | dir => exact absurd rfl hnode
    | file content => rfl
    | link target => exact absurd (List.any_eq_true.mpr ⟨_, hmem, rfl⟩) hlinks
  by_cases hmanifest : path = manifestPath
  · exact hmanifest ▸ List.mem_cons_self
  · by_contra hunknown
    have hbad : path ∈ (actual.filter (· ≠ manifestPath)).filter (· ∉ expected) := by
      rw [List.mem_filter, List.mem_filter]
      refine ⟨⟨hfile, by simpa using hmanifest⟩, ?_⟩
      rw [decide_eq_true_eq]
      exact fun hpath => hunknown (List.mem_cons_of_mem _ hpath)
    rw [hnone] at hbad
    cases hbad

theorem mem_maximalUnmanagedPaths {managed out : List (List String)}
    (h : maximalUnmanagedPaths installed managed = .ok out) :
    out.Nodup ∧ ∀ path, path ∈ out ↔ ∃ child ∈ installed.children [], Maximal installed managed child path := by
  rw [maximalUnmanagedPaths] at h
  cases hvisit : visitAll (visit installed managed installed.depth) (installed.children []) with
  | error e =>
    rw [hvisit] at h
    cases h
  | ok found =>
    rw [hvisit] at h
    obtain rfl : out = found.insertionSort (pathKeyLe · ·) := (Except.ok.inj h).symm
    have hchildren : ∀ child ∈ installed.children [], ∀ o,
        visit installed managed installed.depth child = .ok o →
          o.Nodup ∧ ∀ q, q ∈ o ↔ Maximal installed managed child q := by
      intro child hchild o ho
      obtain ⟨name, rfl, hmem⟩ := mem_children.mp hchild
      exact mem_visit ho hmem (by simp)
    constructor
    · rw [(List.perm_insertionSort _ _).nodup_iff]
      refine nodup_visitAll hvisit (installed.nodup.filter _) (fun child hchild o ho => (hchildren child hchild o ho).1) ?_
      intro child hchild child' hchild' hne o o' ho ho' q hq hq'
      have hpfx := (((hchildren child hchild o ho).2 q).mp hq).pfx
      have hpfx' := (((hchildren child' hchild' o' ho').2 q).mp hq').pfx
      obtain ⟨name, rfl, -⟩ := mem_children.mp hchild
      obtain ⟨name', rfl, -⟩ := mem_children.mp hchild'
      exact hne ((List.prefix_of_prefix_length_le hpfx hpfx' le_rfl).eq_of_length rfl)
    · intro path
      obtain ⟨hall, hmem⟩ := mem_visitAll hvisit
      rw [List.mem_insertionSort, hmem]
      constructor
      · rintro ⟨child, hchild, o, ho, hq⟩
        exact ⟨child, hchild, ((hchildren child hchild o ho).2 path).mp hq⟩
      · rintro ⟨child, hchild, hq⟩
        obtain ⟨o, ho⟩ := hall child hchild
        exact ⟨child, hchild, o, ho, ((hchildren child hchild o ho).2 path).mpr hq⟩

/-- The plan that is made before the first move. -/
theorem updatePlan_of_planUpdate (h : planUpdate libs fails installed staged = .ok preserve) :
    ∃ managed, managedPaths libs installed.entries = .ok managed ∧ UpdatePlan installed staged managed preserve := by
  rw [planUpdate] at h
  split at h
  · cases h
  split at h
  · cases h
  rename_i hstaged
  split at h
  · cases h
  rename_i managed hmanaged
  split at h
  · cases h
  rename_i newManaged hnew
  split at h
  · cases h
  rename_i found hfound
  split at h
  · cases h
  rename_i hconflict
  obtain rfl : found = preserve := Except.ok.inj h
  obtain ⟨hnodup, hmem⟩ := mem_maximalUnmanagedPaths (ok_of_readWith hfound)
  refine ⟨managed, ok_of_readWith hmanaged, hmem, hnodup, ?_⟩
  intro path hpath other node hget hnode
  have hother := mem_managed_of_verified (ok_of_readWith hstaged) (ok_of_readWith hnew) hget hnode
  have hfree := List.find?_eq_none.mp hconflict path hpath
  rw [← not_or]
  intro hoverlap
  exact hfree (List.any_eq_true.mpr ⟨other, hother, decide_eq_true hoverlap⟩)

end

/-! ## The world during an update -/

/-- The router root holds the moved paths as the installation has them, and the files of the staged
release elsewhere. -/
structure Overlaid {C : Type} (installed staged router : FileTree C) (moved : List (List String)) : Prop where
  brought : ∀ path ∈ moved, ∀ place, path <+: place → router.get place = installed.get place
  files : ∀ place, (∀ path ∈ moved, ¬ path <+: place) → ∀ node, node ≠ .dir →
    (router.get place = some node ↔ staged.get place = some node)
  dirs : ∀ place, (∀ path ∈ moved, ¬ path <+: place) → router.get place = some .dir →
    staged.get place = some .dir ∨ installed.get place = some .dir

/-- The backup holds the installation without the moved paths. -/
structure Drained {C : Type} (installed backup : FileTree C) (moved : List (List String)) : Prop where
  gone : ∀ path ∈ moved, ∀ place, path <+: place → backup.get place = none
  kept : ∀ place, (∀ path ∈ moved, ¬ path <+: place) → backup.get place = installed.get place

section

variable {C : Type} {installed staged : DirTree C} {managed preserve moved moved' : List (List String)}
  {path : List String} {router router' backup backup' : FileTree C}

theorem Overlaid.congr {installed staged : FileTree C} (h : Overlaid installed staged router moved)
    (hsame : ∀ path, path ∈ moved' ↔ path ∈ moved) : Overlaid installed staged router moved' where
  brought path hpath := h.brought path ((hsame path).mp hpath)
  files place hplace := h.files place fun path hpath => hplace path ((hsame path).mpr hpath)
  dirs place hplace := h.dirs place fun path hpath => hplace path ((hsame path).mpr hpath)

theorem Drained.congr {installed : FileTree C} (h : Drained installed backup moved)
    (hsame : ∀ path, path ∈ moved' ↔ path ∈ moved) : Drained installed backup moved' where
  gone path hpath := h.gone path ((hsame path).mp hpath)
  kept place hplace := h.kept place fun path hpath => hplace path ((hsame path).mpr hpath)

theorem overlaid_nil (installed staged : FileTree C) : Overlaid installed staged staged [] where
  brought := by simp
  files := by simp
  dirs place _ hdir := .inl hdir

theorem drained_nil (installed : FileTree C) : Drained installed installed [] where
  gone := by simp
  kept := by simp

variable (plan : UpdatePlan installed staged managed preserve) (hmoved : ∀ path ∈ moved, path ∈ preserve)

include plan hmoved

/-- Above the parent of a preserved path nothing was moved. -/
theorem not_moved_above (hpath : path ∈ preserve) {place : List String} (hplace : place <+: path.dropLast) :
    ∀ other ∈ moved, ¬ other <+: place :=
  fun other hother hpfx => plan.not_above (hmoved other hother) hpath (hpfx.trans hplace)

/-- Above and at the parent of a preserved path there are directories only. -/
theorem eq_dir_of_overlaid (hover : Overlaid installed.entries staged.entries router moved) (hpath : path ∈ preserve)
    {place : List String} (hplace : place <+: path.dropLast) {node : FileNode C} (hget : router.get place = some node) :
    node = .dir := by
  by_contra hnode
  have hstaged := (hover.files place (not_moved_above plan hmoved hpath hplace) node hnode).mp hget
  exact (plan.apart path hpath place node hstaged hnode).2 (hplace.trans (List.dropLast_prefix path))

/-- Creating the parent of a preserved path adds directories of the installation. -/
theorem overlaid_createDirAll (hover : Overlaid installed.entries staged.entries router moved) (hpath : path ∈ preserve)
    (h : router.createDirAll path.dropLast = some router') :
    Overlaid installed.entries staged.entries router' moved := by
  have hget := FileTree.get_of_createDirAll h
  constructor
  · intro other hother place hplace
    have hnot : ¬ place <+: path.dropLast := fun hpfx => not_moved_above plan hmoved hpath hpfx other hother hplace
    rw [hget, if_neg hnot, Option.or_none]
    exact hover.brought other hother place hplace
  · intro place hplace node hnode
    rw [← hover.files place hplace node hnode, hget]
    cases router.get place with
    | some node' => rfl
    | none =>
      rw [Option.none_or]
      split
      · simp [hnode.symm]
      · rfl
  · intro place hplace hdir
    rw [hget] at hdir
    cases hrouter : router.get place with
    | some node =>
      rw [hrouter, Option.some_or] at hdir
      exact hover.dirs place hplace (hrouter.trans hdir)
    | none =>
      rw [hrouter, Option.none_or] at hdir
      split at hdir
      · rename_i hpfx
        exact .inr (plan.get_above hpath hpfx)
      · cases hdir

/-- A path that is moved is added to what was moved. -/
theorem overlaid_preserve (hover : Overlaid installed.entries staged.entries router moved)
    (hdrained : Drained installed.entries backup moved) (hpath : path ∈ preserve)
    (h : FileTree.rename backup router path = some (backup', router')) :
    path ∉ moved ∧ Overlaid installed.entries staged.entries router' (moved ++ [path])
      ∧ Drained installed.entries backup' (moved ++ [path]) := by
  obtain ⟨⟨node, hnode, -⟩, hbackup, hrouter⟩ := FileTree.get_of_rename h
  have hnew : path ∉ moved := by
    intro hmem
    rw [hdrained.gone path hmem path (List.prefix_refl _)] at hnode
    cases hnode
  have hkept : ∀ place, path <+: place → backup.get place = installed.entries.get place := by
    intro place hplace
    refine hdrained.kept place ?_
    intro other hother hpfx
    exact hnew (plan.eq_of_above (hmoved other hother) hpath hpfx hplace ▸ hother)
  have hsplit : ∀ place, (∀ other ∈ moved ++ [path], ¬ other <+: place)
      ↔ (∀ other ∈ moved, ¬ other <+: place) ∧ ¬ path <+: place := by
    intro place
    simp only [List.mem_append, List.mem_singleton, or_imp, forall_and, forall_eq]
  refine ⟨hnew, ⟨?_, ?_, ?_⟩, ⟨?_, ?_⟩⟩
  · intro other hother place hplace
    rw [hrouter]
    by_cases hbelow : path <+: place
    · rw [if_pos hbelow, hkept place hbelow]
    · rw [if_neg hbelow]
      rcases List.mem_append.mp hother with hother | hother
      · exact hover.brought other hother place hplace
      · rw [List.mem_singleton.mp hother] at hplace
        exact absurd hplace hbelow
  · intro place hplace
    obtain ⟨hrest, hbelow⟩ := (hsplit place).mp hplace
    rw [hrouter, if_neg hbelow]
    exact hover.files place hrest
  · intro place hplace
    obtain ⟨hrest, hbelow⟩ := (hsplit place).mp hplace
    rw [hrouter, if_neg hbelow]
    exact hover.dirs place hrest
  · intro other hother place hplace
    rw [hbackup]
    split
    · rfl
    · rename_i hbelow
      rcases List.mem_append.mp hother with hother | hother
      · exact hdrained.gone other hother place hplace
      · rw [List.mem_singleton.mp hother] at hplace
        exact absurd hplace hbelow
  · intro place hplace
    obtain ⟨hrest, hbelow⟩ := (hsplit place).mp hplace
    rw [hbackup, if_neg hbelow]
    exact hdrained.kept place hrest

omit hmoved in
/-- A path that is moved back is taken from what was moved. -/
theorem overlaid_restore (hmoved : ∀ other ∈ path :: moved, other ∈ preserve) (hnew : path ∉ moved)
    (hover : Overlaid installed.entries staged.entries router (path :: moved))
    (hdrained : Drained installed.entries backup (path :: moved))
    (h : FileTree.rename router backup path = some (router', backup')) :
    Overlaid installed.entries staged.entries router' moved ∧ Drained installed.entries backup' moved := by
  obtain ⟨-, hrouter, hbackup⟩ := FileTree.get_of_rename h
  have hpath := hmoved path List.mem_cons_self
  have hapart : ∀ other ∈ moved, ∀ place, other <+: place → ¬ path <+: place := by
    intro other hother place hplace hbelow
    exact hnew (plan.eq_of_above (hmoved other (List.mem_cons_of_mem _ hother)) hpath hplace hbelow ▸ hother)
  have hsplit : ∀ place, (∀ other ∈ moved, ¬ other <+: place) → ¬ path <+: place →
      ∀ other ∈ path :: moved, ¬ other <+: place := by
    intro place hrest hbelow other hother
    rcases List.mem_cons.mp hother with rfl | hother
    · exact hbelow
    · exact hrest other hother
  refine ⟨⟨?_, ?_, ?_⟩, ⟨?_, ?_⟩⟩
  · intro other hother place hplace
    rw [hrouter, if_neg (hapart other hother place hplace)]
    exact hover.brought other (List.mem_cons_of_mem _ hother) place hplace
  · intro place hplace node hnode
    rw [hrouter]
    split
    · rename_i hbelow
      constructor
      · intro hnone
        cases hnone
      · exact fun hget => absurd hbelow (plan.apart path hpath place node hget hnode).1
    · rename_i hbelow
      exact hover.files place (hsplit place hplace hbelow) node hnode
  · intro place hplace hdir
    rw [hrouter] at hdir
    split at hdir
    · cases hdir
    · rename_i hbelow
      exact hover.dirs place (hsplit place hplace hbelow) hdir
  · intro other hother place hplace
    rw [hbackup, if_neg (hapart other hother place hplace)]
    exact hdrained.gone other (List.mem_cons_of_mem _ hother) place hplace
  · intro place hplace
    rw [hbackup]
    split
    · rename_i hbelow
      exact hover.brought path List.mem_cons_self place hbelow
    · rename_i hbelow
      exact hdrained.kept place (hsplit place hplace hbelow)

end

end CodexRouter
