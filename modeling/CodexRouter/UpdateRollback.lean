/-
# Rolling an update back

The loop of moves and the loop of the rollback go through the worlds that `Midway` describes.  From
here on the results are about whole updates: `transactional_iff` says that an update leaves the new
release with all user data, or the old state, unless creating the parent of a preserved path fails,
for which the update gives up without rolling back.
-/
import CodexRouter.UpdateTransaction

namespace CodexRouter

/-! ## The loops -/

/-- The renames that take an update back. -/
def UpdateStep.takesBack : UpdateStep → Bool
  | .reactivate | .restore _ | .deactivate | .reinstall => true
  | _ => false

/-- The renames that take an update back do not fail by themselves. -/
def RollbackWorks (fails : UpdateStep → Bool) : Prop := ∀ step, step.takesBack = true → fails step = false

/-- The router root and the backup while paths are moved. -/
structure Midway {C : Type} (installed staged : DirTree C) (preserve moved : List (List String))
    (router backup : FileTree C) : Prop where
  sub : ∀ path ∈ moved, path ∈ preserve
  nodup : moved.Nodup
  overlaid : Overlaid installed.entries staged.entries router moved
  drained : Drained installed.entries backup moved

/-- What stands in a preserved path's place in the staged release can be replaced. -/
def HasRoom {C : Type} (installed staged : DirTree C) (path : List String) : Prop :=
  ∀ node, installed.entries.get path = some node → staged.entries.replaceable path node = true

/-- The parent of a preserved path is neither in the staged release nor above a path that was moved. -/
def ParentMissing {C : Type} (staged : DirTree C) (moved : List (List String)) (path : List String) : Prop :=
  staged.entries.get path.dropLast ≠ some .dir ∧ ∀ other ∈ moved, ¬ path.dropLast <+: other.dropLast

/-- The parent has to be created and cannot be. -/
def ParentFails {C : Type} (fails : UpdateStep → Bool) (staged : DirTree C) (moved : List (List String))
    (path : List String) : Prop :=
  ParentMissing staged moved path ∧ fails (.createParent path) = true

/-- Where nothing was moved to yet, the router root is the staged release, but for the parents of what was
moved. -/
structure Ahead {C : Type} (staged : DirTree C) (preserve moved : List (List String)) (router : FileTree C) :
    Prop where
  fresh : ∀ path ∈ preserve, path ∉ moved → ∀ place, path <+: place → router.get place = staged.entries.get place
  parents : ∀ path ∈ preserve, ∀ place, place <+: path.dropLast → (router.get place = some .dir
    ↔ staged.entries.get place = some .dir ∨ ∃ other ∈ moved, place <+: other.dropLast)

section

variable {C : Type} {installed staged : DirTree C} {managed preserve moved : List (List String)}
  {path : List String} {router router' backup backup' : FileTree C} {fails : UpdateStep → Bool}

theorem midway_nil (preserve : List (List String)) : Midway installed staged preserve [] staged.entries installed.entries where
  sub := by simp
  nodup := List.nodup_nil
  overlaid := overlaid_nil _ _
  drained := drained_nil _

theorem ahead_nil (staged : DirTree C) (preserve : List (List String)) : Ahead staged preserve [] staged.entries where
  fresh _ _ _ _ _ := rfl
  parents := by simp

theorem perform_of_works {α : Type} (hworks : RollbackWorks fails) {step : UpdateStep} (hstep : step.takesBack = true)
    (result : Option α) : perform fails step result = result := by
  rw [perform, hworks step hstep, if_neg Bool.false_ne_true]

variable (plan : UpdatePlan installed staged managed preserve)

include plan

/-- The parent of a preserved path is there, or is created, or its creation fails by itself. -/
theorem Midway.createMissing_cases (h : Midway installed staged preserve moved router backup) (hpath : path ∈ preserve) :
    (createMissing fails (.createParent path) router path.dropLast = none
      ∧ router.get path.dropLast ≠ some .dir ∧ fails (.createParent path) = true)
    ∨ ∃ router', createMissing fails (.createParent path) router path.dropLast = some router'
      ∧ (router' = router ∧ router.get path.dropLast = some .dir
        ∨ router.get path.dropLast ≠ some .dir ∧ fails (.createParent path) = false
          ∧ router.createDirAll path.dropLast = some router')
      ∧ Midway installed staged preserve moved router' backup ∧ router'.get path.dropLast = some .dir := by
  obtain ⟨router', hcreated⟩ : ∃ router', router.createDirAll path.dropLast = some router' :=
    FileTree.exists_createDirAll fun top htop node hnode => eq_dir_of_overlaid plan h.sub h.overlaid hpath htop hnode
  rw [createMissing]
  by_cases hthere : router.get path.dropLast = some .dir
  · rw [hthere]
    exact .inr ⟨router, rfl, .inl ⟨rfl, rfl⟩, h, hthere⟩
  · have hnone : router.get path.dropLast = none := by
      cases hget : router.get path.dropLast with
      | none => rfl
      | some node =>
        rw [hget, eq_dir_of_overlaid plan h.sub h.overlaid hpath (List.prefix_refl _) hget] at hthere
        exact absurd rfl hthere
    rw [hnone, hcreated, perform]
    cases hfails : fails (.createParent path) with
    | true => exact .inl ⟨rfl, by simp, rfl⟩
    | false =>
      refine .inr ⟨router', rfl, .inr ⟨by simp, rfl, rfl⟩,
        ⟨h.sub, h.nodup, overlaid_createDirAll plan h.sub h.overlaid hpath hcreated, h.drained⟩, ?_⟩
      rw [FileTree.get_of_createDirAll hcreated, hnone, if_pos (List.prefix_refl _)]
      rfl

theorem Midway.move (h : Midway installed staged preserve moved router backup) (hpath : path ∈ preserve)
    (hmoved : FileTree.rename backup router path = some (backup', router')) :
    path ∉ moved ∧ Midway installed staged preserve (moved ++ [path]) router' backup' := by
  obtain ⟨hnew, hover, hdrained⟩ := overlaid_preserve plan h.sub h.overlaid h.drained hpath hmoved
  refine ⟨hnew, ?_, h.nodup.append (List.nodup_singleton _) (by simpa using hnew), hover, hdrained⟩
  intro other hother
  rcases List.mem_append.mp hother with hother | hother
  · exact h.sub other hother
  · rw [List.mem_singleton.mp hother]
    exact hpath

/-- The loop of moves stays in such worlds. -/
theorem midway_of_moveAll {todo moved' : List (List String)} {fin : MovesEnd} {world : UpdateWorld C}
    (h : Midway installed staged preserve moved router backup) (htodo : ∀ path ∈ todo, path ∈ preserve)
    (hrun : moveAll fails todo moved ⟨some router, none, some backup⟩ = (fin, moved', world)) :
    ∃ router' backup', world = ⟨some router', none, some backup'⟩
      ∧ Midway installed staged preserve moved' router' backup' ∧ (fin = .done → moved' = moved ++ todo) := by
  induction todo generalizing moved router backup with
  | nil =>
    obtain ⟨rfl, rfl, rfl⟩ : .done = fin ∧ moved = moved' ∧ ⟨some router, none, some backup⟩ = world := by
      simpa [moveAll] using hrun
    exact ⟨router, backup, rfl, h, fun _ => (List.append_nil moved).symm⟩
  | cons path rest ih =>
    have hpath := htodo path List.mem_cons_self
    rw [moveAll, UpdateWorld.createParent, Option.bind_some] at hrun
    rcases h.createMissing_cases plan hpath with ⟨hnone, -, -⟩ | ⟨router₁, hsome, -, hmid, -⟩
    · rw [hnone] at hrun
      obtain ⟨rfl, rfl, rfl⟩ : .noParent = fin ∧ moved = moved' ∧ ⟨some router, none, some backup⟩ = world := by
        simpa using hrun
      exact ⟨router, backup, rfl, h, fun hdone => by cases hdone⟩
    · rw [hsome, Option.map_some] at hrun
      dsimp only at hrun
      cases hrename : FileTree.rename backup router₁ path with
      | none =>
        have hstuck : perform fails (.preserve path)
            (UpdateWorld.preserve ⟨some router₁, none, some backup⟩ path) = none := by
          rw [perform, UpdateWorld.preserve, Option.bind_some, Option.bind_some, hrename]
          simp
        rw [hstuck] at hrun
        obtain ⟨rfl, rfl, rfl⟩ :
            .notMoved path = fin ∧ moved = moved' ∧ ⟨some router₁, none, some backup⟩ = world := by
          simpa using hrun
        exact ⟨router₁, backup, rfl, hmid, fun hdone => by cases hdone⟩
      | some trees =>
        obtain ⟨backup₁, router₂⟩ := trees
        have hmovedWorld : UpdateWorld.preserve ⟨some router₁, none, some backup⟩ path
            = some ⟨some router₂, none, some backup₁⟩ := by
          rw [UpdateWorld.preserve, Option.bind_some, Option.bind_some, hrename]
          rfl
        rw [hmovedWorld, perform] at hrun
        by_cases hmove : fails (.preserve path) = true
        · rw [if_pos hmove] at hrun
          obtain ⟨rfl, rfl, rfl⟩ :
              .notMoved path = fin ∧ moved = moved' ∧ ⟨some router₁, none, some backup⟩ = world := by
            simpa using hrun
          exact ⟨router₁, backup, rfl, hmid, fun hdone => by cases hdone⟩
        · rw [if_neg hmove] at hrun
          obtain ⟨-, hnext⟩ := hmid.move plan hpath hrename
          obtain ⟨router', backup', hworld', hmid', hall⟩ :=
            ih hnext (fun other hother => htodo other (List.mem_cons_of_mem _ hother)) hrun
          refine ⟨router', backup', hworld', hmid', ?_⟩
          intro hdone
          rw [hall hdone, List.append_assoc, List.singleton_append]

/-- The loop of the rollback moves everything back. -/
theorem exists_restoreAll (hworks : RollbackWorks fails)
    (h : Midway installed staged preserve moved router backup) :
    ∃ router' backup', restoreAll fails moved ⟨some router, none, some backup⟩ = (none, ⟨some router', none, some backup'⟩)
      ∧ Midway installed staged preserve [] router' backup' := by
  induction moved generalizing router backup with
  | nil => exact ⟨router, backup, rfl, h⟩
  | cons path rest ih =>
    have hpath := h.sub path List.mem_cons_self
    -- the directories above the path are still in the backup
    have habove : ∀ place, place <+: path.dropLast → backup.get place = some .dir := by
      intro place hplace
      rw [h.drained.kept place (not_moved_above plan h.sub hpath hplace)]
      exact plan.get_above hpath hplace
    have hcreated : createMissing fails (.restoreParent path) backup path.dropLast = some backup := by
      rw [createMissing, habove _ (List.prefix_refl _)]
      rfl
    obtain ⟨node, hnode⟩ := FileTree.mem_paths_iff.mp (plan.mem_paths hpath)
    have hthere : router.get path = some node := by
      rw [h.overlaid.brought path List.mem_cons_self path (List.prefix_refl _)]
      exact hnode
    have hroom : backup.replaceable path node = true := by
      rw [FileTree.replaceable, h.drained.gone path List.mem_cons_self path (List.prefix_refl _)]
    obtain ⟨router₁, backup₁, hrename⟩ := FileTree.exists_rename hthere (habove _ (List.prefix_refl _)) hroom
    have hnew := (List.nodup_cons.mp h.nodup).1
    obtain ⟨hover, hdrained⟩ := overlaid_restore plan h.sub hnew h.overlaid h.drained hrename
    obtain ⟨router', backup', hrest, hmid⟩ := ih
      ⟨fun other hother => h.sub other (List.mem_cons_of_mem _ hother), (List.nodup_cons.mp h.nodup).2, hover, hdrained⟩
    refine ⟨router', backup', ?_, hmid⟩
    have hparentWorld : UpdateWorld.restoreParent ⟨some router, none, some backup⟩ fails path
        = some ⟨some router, none, some backup⟩ := by
      rw [UpdateWorld.restoreParent, Option.bind_some, hcreated]
      rfl
    have hrestoreWorld : UpdateWorld.restore ⟨some router, none, some backup⟩ path
        = some ⟨some router₁, none, some backup₁⟩ := by
      rw [UpdateWorld.restore, Option.bind_some, Option.bind_some, hthere, hrename]
      rfl
    rw [restoreAll, hparentWorld]
    dsimp only
    rw [perform_of_works hworks rfl, hrestoreWorld]
    exact hrest

/-- A rollback restores the installation, and the files of the staged release. -/
theorem exists_rollback (hworks : RollbackWorks fails) (h : Midway installed staged preserve moved router backup) :
    ∃ router' backup', rollback fails ⟨moved⟩ ⟨some router, none, some backup⟩
        = (.ok (), ⟨some backup', some router', none⟩)
      ∧ Midway installed staged preserve [] router' backup' := by
  have hreversed : Midway installed staged preserve moved.reverse router backup :=
    ⟨fun path hpath => h.sub path (List.mem_reverse.mp hpath), List.nodup_reverse.mpr h.nodup,
      h.overlaid.congr fun _ => List.mem_reverse, h.drained.congr fun _ => List.mem_reverse⟩
  obtain ⟨router', backup', hrestored, hmid⟩ := exists_restoreAll plan hworks hreversed
  refine ⟨router', backup', ?_, hmid⟩
  rw [rollback, hrestored]
  dsimp only
  rw [if_neg (by simp), perform_of_works hworks rfl, UpdateWorld.deactivate, if_pos (by simp)]
  dsimp only
  rw [perform_of_works hworks rfl, UpdateWorld.reinstall, if_pos (by simp)]

/-- A parent that had to be created is there afterwards. -/
theorem Ahead.createMissing (hahead : Ahead staged preserve moved router)
    (h : Midway installed staged preserve moved router backup) (hpath : path ∈ preserve)
    (hcreated : router' = router ∧ router.get path.dropLast = some .dir
      ∨ router.get path.dropLast ≠ some .dir ∧ fails (.createParent path) = false
        ∧ router.createDirAll path.dropLast = some router') :
    (∀ place, ¬ place <+: path.dropLast → router'.get place = router.get place)
      ∧ ∀ place, place <+: path.dropLast → router'.get place = some .dir := by
  rcases hcreated with ⟨rfl, hthere⟩ | ⟨-, -, hcreated⟩
  · refine ⟨fun _ _ => rfl, ?_⟩
    intro place hplace
    rw [hahead.parents path hpath place hplace]
    rcases (hahead.parents path hpath _ (List.prefix_refl _)).mp hthere with hstaged | ⟨other, hother, hpfx⟩
    · by_cases hsame : place = path.dropLast
      · exact .inl (hsame ▸ hstaged)
      · exact .inl (staged.get_of_prefix (FileTree.mem_paths_of_get hstaged) hplace hsame)
    · exact .inr ⟨other, hother, hplace.trans hpfx⟩
  · constructor
    · intro place hplace
      rw [FileTree.get_of_createDirAll hcreated, if_neg hplace, Option.or_none]
    · intro place hplace
      rw [FileTree.get_of_createDirAll hcreated, if_pos hplace]
      cases hget : router.get place with
      | none => rfl
      | some node =>
        rw [eq_dir_of_overlaid plan h.sub h.overlaid hpath hplace hget]
        rfl

/-- Moving a path keeps the loop ahead. -/
theorem Ahead.move (hahead : Ahead staged preserve moved router) (hpath : path ∈ preserve) {router₁ : FileTree C}
    (hkept : ∀ place, ¬ place <+: path.dropLast → router₁.get place = router.get place)
    (hparent : ∀ place, place <+: path.dropLast → router₁.get place = some .dir)
    (hmoved : FileTree.rename backup router₁ path = some (backup', router')) :
    Ahead staged preserve (moved ++ [path]) router' where
  fresh := by
    intro other hother hnot place hplace
    rw [List.mem_append, List.mem_singleton, not_or] at hnot
    have hbelow : ¬ path <+: place := fun hpfx => hnot.2 (plan.eq_of_above hother hpath hplace hpfx)
    have habove : ¬ place <+: path.dropLast := fun hpfx => plan.not_above hother hpath (hplace.trans hpfx)
    rw [(FileTree.get_of_rename hmoved).2.2 place, if_neg hbelow, hkept place habove]
    exact hahead.fresh other hother hnot.1 place hplace
  parents := by
    intro other hother place hplace
    have hbelow : ¬ path <+: place := fun hpfx => plan.not_above hpath hother (hpfx.trans hplace)
    rw [(FileTree.get_of_rename hmoved).2.2 place, if_neg hbelow]
    simp only [List.mem_append, List.mem_singleton, or_and_right, exists_or, exists_eq_left, ← or_assoc]
    rw [← hahead.parents other hother place hplace]
    by_cases habove : place <+: path.dropLast
    · simp [hparent place habove, habove]
    · rw [hkept place habove, or_iff_left habove]

omit plan in
theorem parentMissing_iff (hahead : Ahead staged preserve moved router) (hpath : path ∈ preserve) :
    ParentMissing staged moved path ↔ router.get path.dropLast ≠ some .dir := by
  rw [ParentMissing, ne_eq, ne_eq, hahead.parents path hpath _ (List.prefix_refl _), not_or]
  simp only [not_exists, not_and]

/-- When the loop of moves gives up for a missing parent. -/
theorem moveAll_noParent_iff {todo : List (List String)} (h : Midway installed staged preserve moved router backup)
    (hahead : Ahead staged preserve moved router) (hpreserve : preserve = moved ++ todo) :
    (moveAll fails todo moved ⟨some router, none, some backup⟩).1 = .noParent
      ↔ ∃ before path after, todo = before ++ path :: after ∧ ParentFails fails staged (moved ++ before) path
        ∧ ∀ first other last, before = first ++ other :: last → ¬ ParentFails fails staged (moved ++ first) other
          ∧ fails (.preserve other) = false ∧ HasRoom installed staged other := by
  induction todo generalizing moved router backup with
  | nil => simp [moveAll]
  | cons path rest ih =>
    have hpath : path ∈ preserve := by
      rw [hpreserve]
      exact List.mem_append_right _ List.mem_cons_self
    have hnew : path ∉ moved := by
      have hnodup := plan.nodup
      rw [hpreserve] at hnodup
      exact fun hmem => List.disjoint_of_nodup_append hnodup hmem List.mem_cons_self
    -- the list splits at its first path or behind it
    have hsplit : (∃ before p after, path :: rest = before ++ p :: after ∧ ParentFails fails staged (moved ++ before) p
          ∧ ∀ first other last, before = first ++ other :: last → ¬ ParentFails fails staged (moved ++ first) other
            ∧ fails (.preserve other) = false ∧ HasRoom installed staged other)
        ↔ ParentFails fails staged moved path
          ∨ (¬ ParentFails fails staged moved path ∧ fails (.preserve path) = false ∧ HasRoom installed staged path)
            ∧ ∃ before p after, rest = before ++ p :: after
              ∧ ParentFails fails staged (moved ++ [path] ++ before) p
              ∧ ∀ first other last, before = first ++ other :: last →
                ¬ ParentFails fails staged (moved ++ [path] ++ first) other
                  ∧ fails (.preserve other) = false ∧ HasRoom installed staged other := by
      constructor
      · rintro ⟨before, p, after, heq, hfails, hbefore⟩
        cases before with
        | nil =>
          rw [List.nil_append, List.cons.injEq] at heq
          rw [heq.1]
          exact .inl (by simpa using hfails)
        | cons q before =>
          rw [List.cons_append, List.cons.injEq] at heq
          obtain ⟨rfl, rfl⟩ := heq
          refine .inr ⟨by simpa using hbefore [] path before rfl, before, p, after, rfl, by simpa using hfails, ?_⟩
          intro first other last heq
          simpa using hbefore (path :: first) other last (by rw [heq, List.cons_append])
      · rintro (hfails | ⟨hfirst, before, p, after, rfl, hfails, hbefore⟩)
        · exact ⟨[], path, rest, rfl, by simpa using hfails, fun first other last heq => by simp at heq⟩
        · refine ⟨path :: before, p, after, rfl, by simpa using hfails, ?_⟩
          intro first other last heq
          cases first with
          | nil =>
            rw [List.nil_append, List.cons.injEq] at heq
            rw [← heq.1]
            simpa using hfirst
          | cons q first =>
            rw [List.cons_append, List.cons.injEq] at heq
            obtain ⟨rfl, rfl⟩ := heq
            simpa using hbefore first other last rfl
    have hmissing := parentMissing_iff hahead hpath
    rw [hsplit, moveAll, UpdateWorld.createParent, Option.bind_some]
    rcases h.createMissing_cases plan hpath with ⟨hnone, hno, hfails⟩ |
      ⟨router₁, hsome, hcreated, hmid, hdir⟩
    · rw [hnone]
      exact iff_of_true rfl (.inl ⟨hmissing.mpr hno, hfails⟩)
    · have hworks : ¬ ParentFails fails staged moved path := by
        rintro ⟨hno, hfails⟩
        rcases hcreated with ⟨-, hthere⟩ | ⟨-, hfree, -⟩
        · exact hmissing.mp hno hthere
        · rw [hfails] at hfree
          cases hfree
      obtain ⟨hkept, hparent⟩ := hahead.createMissing plan h hpath hcreated
      rw [hsome, Option.map_some, or_iff_right hworks]
      dsimp only
      obtain ⟨node, hnode⟩ := FileTree.mem_paths_iff.mp (plan.mem_paths hpath)
      have hthere : backup.get path = some node := by
        rw [h.drained.kept path, hnode]
        intro other hother hpfx
        exact hnew (plan.eq_of_prefix (h.sub other hother) hpath hpfx ▸ hother)
      have hroom : router₁.replaceable path node = staged.entries.replaceable path node := by
        refine FileTree.replaceable_congr fun place hplace => ?_
        have habove : ¬ place <+: path.dropLast := fun hpfx => plan.not_above hpath hpath (hplace.trans hpfx)
        rw [hkept place habove]
        exact hahead.fresh path hpath hnew place hplace
      have hhasRoom : HasRoom installed staged path ↔ router₁.replaceable path node = true := by
        rw [hroom]
        constructor
        · exact fun hroom => hroom node hnode
        · intro hroom node' hnode'
          rw [hnode, Option.some.injEq] at hnode'
          rwa [← hnode']
      cases hrename : FileTree.rename backup router₁ path with
      | none =>
        have hstuck : perform fails (.preserve path)
            (UpdateWorld.preserve ⟨some router₁, none, some backup⟩ path) = none := by
          rw [perform, UpdateWorld.preserve, Option.bind_some, Option.bind_some, hrename]
          simp
        rw [hstuck]
        constructor
        · intro hstop
          cases hstop
        · rintro ⟨⟨-, -, hplace⟩, -⟩
          obtain ⟨backup₁, router₂, hmoves⟩ := FileTree.exists_rename hthere hdir (hhasRoom.mp hplace)
          rw [hrename] at hmoves
          cases hmoves
      | some trees =>
        obtain ⟨backup₁, router₂⟩ := trees
        have hplace : HasRoom installed staged path := by
          obtain ⟨⟨node', hnode', hreplaceable⟩, -⟩ := FileTree.get_of_rename hrename
          rw [hthere, Option.some.injEq] at hnode'
          rw [hhasRoom, hnode']
          exact hreplaceable
        have hmovedWorld : UpdateWorld.preserve ⟨some router₁, none, some backup⟩ path
            = some ⟨some router₂, none, some backup₁⟩ := by
          rw [UpdateWorld.preserve, Option.bind_some, Option.bind_some, hrename]
          rfl
        rw [hmovedWorld, perform]
        by_cases hmove : fails (.preserve path) = true
        · rw [if_pos hmove]
          simp [hmove]
        · obtain ⟨-, hnext⟩ := hmid.move plan hpath hrename
          rw [if_neg hmove, and_iff_right ⟨hworks, by simpa using hmove, hplace⟩]
          exact ih hnext (hahead.move plan hpath hkept hparent hrename)
            (by rw [hpreserve, List.append_assoc, List.singleton_append])

end

/-! ## Whole updates -/

/-- The trees agree on everything but directories. -/
def SameFiles {C : Type} (tree tree' : FileTree C) : Prop :=
  ∀ place node, node ≠ .dir → (tree.get place = some node ↔ tree'.get place = some node)

/-- The new tree has the files of the staged release, and of the installation all that its manifest does
not manage; every directory is of one of the two. -/
structure KeepsUserData {C : Type} (managed : List (List String)) (installed staged new : FileTree C) : Prop where
  files : ∀ place node, node ≠ .dir → (new.get place = some node
    ↔ staged.get place = some node ∨ installed.get place = some node ∧ Unmanaged managed place)
  kept : ∀ place, place ≠ [] → installed.get place = some .dir → Unmanaged managed place → new.get place = some .dir
  dirs : ∀ place, new.get place = some .dir → staged.get place = some .dir ∨ installed.get place = some .dir

/-- The router root is the installation, and the staged root has its files. -/
def Restored {C : Type} (installed staged : DirTree C) (world : UpdateWorld C) : Prop :=
  (∃ old, world.router = some old ∧ ∀ place, old.get place = installed.entries.get place)
    ∧ ∃ release, world.staged = some release ∧ SameFiles release staged.entries

section

variable {C : Type} (libs : ReleaseLibs C) (fails : UpdateStep → Bool) (installed staged : DirTree C)
  (backup : Option (FileTree C))

/-- An update that ends well has kept the user data and can be rolled back; after any other the old state
is there again. -/
structure Transactional : Prop where
  ok : ∀ transaction world, beginUpdateTransaction libs fails installed staged backup = (.ok transaction, world) →
    (∃ managed new, managedPaths libs installed.entries = .ok managed ∧ world.router = some new
        ∧ KeepsUserData managed installed.entries staged.entries new)
      ∧ ∀ fails', RollbackWorks fails' →
        ∃ world', rollback fails' transaction world = (.ok (), world') ∧ Restored installed staged world'
  error : ∀ e world, beginUpdateTransaction libs fails installed staged backup = (.error e, world) →
    Restored installed staged world

/-- The update comes as far as a preserved path whose parent is missing and cannot be created: up to there
no access fails, and the paths before it can be moved. -/
def LosesParent : Prop :=
  backup = none ∧ fails .backup = false ∧ fails .activate = false
    ∧ ∃ before path after, planUpdate libs fails installed staged = .ok (before ++ path :: after)
      ∧ ParentFails fails staged before path
      ∧ ∀ first other last, before = first ++ other :: last → ¬ ParentFails fails staged first other
        ∧ fails (.preserve other) = false ∧ HasRoom installed staged other

end

section

variable {C : Type} {libs : ReleaseLibs C} {fails : UpdateStep → Bool} {installed staged : DirTree C}
  {backup : Option (FileTree C)} {managed preserve moved : List (List String)} {router tree : FileTree C}

theorem restored_of_midway (h : Midway installed staged preserve [] router tree) :
    Restored installed staged ⟨some tree, some router, none⟩ := by
  refine ⟨⟨tree, rfl, fun place => h.drained.kept place (by simp)⟩, router, rfl, ?_⟩
  exact fun place node hnode => h.overlaid.files place (by simp) node hnode

theorem restored_initial (installed staged : DirTree C) (backup : Option (FileTree C)) :
    Restored installed staged ⟨some installed.entries, some staged.entries, backup⟩ :=
  ⟨⟨_, rfl, fun _ => rfl⟩, _, rfl, fun _ _ _ => Iff.rfl⟩

/-- When all paths are moved, the router root keeps the user data. -/
theorem keepsUserData (plan : UpdatePlan installed staged managed preserve)
    (h : Midway installed staged preserve preserve router tree) :
    KeepsUserData managed installed.entries staged.entries router where
  files := by
    intro place node hnode
    by_cases hbelow : ∃ path ∈ preserve, path <+: place
    · obtain ⟨path, hpath, hpfx⟩ := hbelow
      have hstaged : ¬ staged.entries.get place = some node :=
        fun hget => (plan.apart path hpath place node hget hnode).1 hpfx
      rw [h.overlaid.brought path hpath place hpfx, or_iff_right hstaged,
        and_iff_left ((plan.unmanaged hpath).below hpfx)]
    · have hnone : ∀ path ∈ preserve, ¬ path <+: place := fun path hpath hpfx => hbelow ⟨path, hpath, hpfx⟩
      have hinstalled : ¬ (installed.entries.get place = some node ∧ Unmanaged managed place) := by
        rintro ⟨hget, hfree⟩
        have hne : place ≠ [] := by
          rintro rfl
          rw [installed.root, Option.some.injEq] at hget
          exact hnode hget.symm
        exact hbelow (plan.exists_above (FileTree.mem_paths_of_get hget) hne hfree)
      rw [h.overlaid.files place hnone node hnode, or_iff_left hinstalled]
  kept := by
    intro place hne hget hfree
    obtain ⟨path, hpath, hpfx⟩ := plan.exists_above (FileTree.mem_paths_of_get hget) hne hfree
    rw [h.overlaid.brought path hpath place hpfx]
    exact hget
  dirs := by
    intro place hdir
    by_cases hbelow : ∃ path ∈ preserve, path <+: place
    · obtain ⟨path, hpath, hpfx⟩ := hbelow
      rw [h.overlaid.brought path hpath place hpfx] at hdir
      exact .inr hdir
    · exact h.overlaid.dirs place (fun path hpath hpfx => hbelow ⟨path, hpath, hpfx⟩) hdir

/-- How an update begins: it gives up with nothing changed, or it comes to the moves. -/
theorem begin_cases (hworks : RollbackWorks fails) :
    (∃ e, beginUpdateTransaction libs fails installed staged backup
        = (.error e, ⟨some installed.entries, some staged.entries, backup⟩))
      ∧ (∀ preserve, planUpdate libs fails installed staged = .ok preserve → backup = none →
        fails .backup = false → fails .activate = true)
    ∨ ∃ preserve, planUpdate libs fails installed staged = .ok preserve ∧ backup = none
      ∧ fails .backup = false ∧ fails .activate = false
      ∧ beginUpdateTransaction libs fails installed staged backup
        = finishUpdate libs fails preserve ⟨some staged.entries, none, some installed.entries⟩ := by
  rw [beginUpdateTransaction]
  cases hplan : planUpdate libs fails installed staged with
  | error e => exact .inl ⟨⟨e, rfl⟩, by simp⟩
  | ok preserve =>
    dsimp only
    cases backup with
    | some old => exact .inl ⟨⟨_, rfl⟩, by simp⟩
    | none =>
      have haside : UpdateWorld.moveAside ⟨some installed.entries, some staged.entries, none⟩
          = some ⟨none, some staged.entries, some installed.entries⟩ := rfl
      have hactivated : UpdateWorld.activate ⟨none, some staged.entries, some installed.entries⟩
          = some ⟨some staged.entries, none, some installed.entries⟩ := rfl
      have hreinstalled : UpdateWorld.reinstall ⟨none, some staged.entries, some installed.entries⟩
          = some ⟨some installed.entries, some staged.entries, none⟩ := rfl
      rw [Option.isSome_none, if_neg Bool.false_ne_true, haside, perform]
      cases hbackup : fails .backup with
      | true => exact .inl ⟨⟨_, rfl⟩, fun _ _ _ hfree => absurd hfree (by simp)⟩
      | false =>
        rw [if_neg Bool.false_ne_true]
        dsimp only
        rw [hactivated, perform]
        cases hactivate : fails .activate with
        | true =>
          rw [if_pos rfl]
          dsimp only
          rw [perform_of_works hworks rfl, hreinstalled]
          exact .inl ⟨⟨_, rfl⟩, fun _ _ _ _ => rfl⟩
        | false =>
          rw [if_neg Bool.false_ne_true]
          exact .inr ⟨preserve, rfl, rfl, rfl, rfl, rfl⟩

theorem rollBackWith_restores (plan : UpdatePlan installed staged managed preserve) (hworks : RollbackWorks fails)
    (h : Midway installed staged preserve moved router tree) (error : String) (failed : String → String) :
    ∃ world, rollBackWith fails moved ⟨some router, none, some tree⟩ error failed = (.error error, world)
      ∧ Restored installed staged world := by
  obtain ⟨router', tree', hrolled, hmid⟩ := exists_rollback plan hworks h
  refine ⟨⟨some tree', some router', none⟩, ?_, restored_of_midway hmid⟩
  rw [rollBackWith, hrolled]

/-- How it ends: with the loss of a parent, restored, or with all paths moved. -/
theorem finish_cases (plan : UpdatePlan installed staged managed preserve) (hworks : RollbackWorks fails) :
    ((moveAll fails preserve [] ⟨some staged.entries, none, some installed.entries⟩).1 = .noParent
      ∧ ∃ world, finishUpdate libs fails preserve ⟨some staged.entries, none, some installed.entries⟩
          = (.error ioError, world) ∧ world.staged = none)
    ∨ (moveAll fails preserve [] ⟨some staged.entries, none, some installed.entries⟩).1 ≠ .noParent
      ∧ ((∃ e world, finishUpdate libs fails preserve ⟨some staged.entries, none, some installed.entries⟩
          = (.error e, world) ∧ Restored installed staged world)
        ∨ ∃ router tree, finishUpdate libs fails preserve ⟨some staged.entries, none, some installed.entries⟩
            = (.ok ⟨preserve⟩, ⟨some router, none, some tree⟩)
          ∧ Midway installed staged preserve preserve router tree) := by
  cases hmoves : moveAll fails preserve [] ⟨some staged.entries, none, some installed.entries⟩ with
  | mk fin rest =>
    obtain ⟨moved, world⟩ := rest
    obtain ⟨router, tree, rfl, hmid, hall⟩ :=
      midway_of_moveAll plan (midway_nil preserve) (fun path hpath => hpath) hmoves
    rw [finishUpdate, hmoves]
    cases fin with
    | noParent => exact .inl ⟨rfl, _, rfl, rfl⟩
    | notMoved path =>
      obtain ⟨world, hrolled, hrestored⟩ := rollBackWith_restores plan hworks hmid
        ("could not preserve user data: " ++ Text.join "\\" path)
        fun e => "could not preserve user data (" ++ ioError ++ ") and rollback failed (" ++ e ++ ")"
      exact .inr ⟨by simp, .inl ⟨_, world, hrolled, hrestored⟩⟩
    | done =>
      obtain rfl : moved = preserve := by simpa using hall rfl
      refine .inr ⟨by simp, ?_⟩
      dsimp only
      cases hverified : readWith fails .verifyActivated (verifyReleaseRoot libs router false) with
      | error e =>
        obtain ⟨world, hrolled, hrestored⟩ := rollBackWith_restores plan hworks hmid
          ("activated release validation failed: " ++ e ++ "; the previous version was restored")
          fun e' => "activated release validation failed: " ++ e ++ "; rollback failed: " ++ e'
        refine .inl ⟨"activated release validation failed: " ++ e ++ "; the previous version was restored", world, ?_,
          hrestored⟩
        rw [Option.getD_some, hverified]
        exact hrolled
      | ok u =>
        refine .inr ⟨router, tree, ?_, hmid⟩
        rw [Option.getD_some, hverified]

/-- **Updates are transactions**, unless creating the parent of a preserved path fails. -/
theorem transactional_iff (hworks : RollbackWorks fails) :
    Transactional libs fails installed staged backup ↔ ¬ LosesParent libs fails installed staged backup := by
  have hparent : ∀ {managed preserve}, UpdatePlan installed staged managed preserve →
      ((moveAll fails preserve [] ⟨some staged.entries, none, some installed.entries⟩).1 = .noParent
        ↔ ∃ before path after, preserve = before ++ path :: after ∧ ParentFails fails staged before path
          ∧ ∀ first other last, before = first ++ other :: last → ¬ ParentFails fails staged first other
            ∧ fails (.preserve other) = false ∧ HasRoom installed staged other) :=
    fun plan => moveAll_noParent_iff plan (midway_nil _) (ahead_nil _ _) rfl
  rcases begin_cases hworks with
    ⟨⟨e, hbegin⟩, hstops⟩ | ⟨preserve, hplan, hbackup, hfree, hactive, hbegin⟩
  · -- nothing was changed
    have hkeeps : ¬ LosesParent libs fails installed staged backup := by
      rintro ⟨hbackup, hfree, hactive, before, path, after, hplan, -⟩
      rw [hstops _ hplan hbackup hfree] at hactive
      cases hactive
    refine iff_of_true ⟨?_, ?_⟩ hkeeps
    · intro transaction world hok
      rw [hbegin, Prod.mk.injEq] at hok
      cases hok.1
    · intro e' world herror
      rw [hbegin, Prod.mk.injEq] at herror
      rw [← herror.2]
      exact restored_initial installed staged backup
  · obtain ⟨managed, hmanaged, plan⟩ := updatePlan_of_planUpdate hplan
    have hloses : LosesParent libs fails installed staged backup
        ↔ (moveAll fails preserve [] ⟨some staged.entries, none, some installed.entries⟩).1 = .noParent := by
      rw [hparent plan, LosesParent, hplan]
      simp only [hbackup, hfree, hactive, true_and, Except.ok.injEq]
    rw [hloses]
    rcases finish_cases plan hworks with ⟨hstop, world, hfinish, hgone⟩ |
      ⟨hgoes, ⟨e, world, hfinish, hrestored⟩ | ⟨router, tree, hfinish, hmid⟩⟩
    · refine iff_of_false ?_ (fun hgoes => hgoes hstop)
      intro htransactional
      obtain ⟨-, release, hstaged, -⟩ := htransactional.error ioError world (hbegin.trans hfinish)
      rw [hgone] at hstaged
      cases hstaged
    · refine iff_of_true ⟨?_, ?_⟩ hgoes
      · intro transaction world' hok
        rw [hbegin, hfinish, Prod.mk.injEq] at hok
        cases hok.1
      · intro e' world' herror
        rw [hbegin, hfinish, Prod.mk.injEq] at herror
        rw [← herror.2]
        exact hrestored
    · refine iff_of_true ⟨?_, ?_⟩ hgoes
      · intro transaction world hok
        rw [hbegin, hfinish, Prod.mk.injEq, Except.ok.injEq] at hok
        obtain ⟨rfl, rfl⟩ := hok
        refine ⟨⟨managed, router, hmanaged, rfl, keepsUserData plan hmid⟩, ?_⟩
        intro fails' hworks'
        obtain ⟨router', tree', hrolled, hend⟩ := exists_rollback plan hworks' hmid
        exact ⟨_, hrolled, restored_of_midway hend⟩
      · intro e world herror
        rw [hbegin, hfinish, Prod.mk.injEq] at herror
        cases herror.1

end

/-! ## Runs -/

namespace UpdateRun

/-- The files: the texts `router 1` and `router 2`, `logo` and `mine`, and the manifests. -/
inductive Content where
  | oldRouter
  | newRouter
  | logo
  | notes
  | oldManifest
  | newManifest
  deriving DecidableEq

/-- What is read off the files. -/
def libs : ReleaseLibs Content where
  manifest
    | .oldManifest => some
      [⟨"Codex-Router.exe", 8, "e5b952e0bf549dc5cb2bf858bd79a4af5eb4d9b0e0e01b010775983e9cc58808"⟩,
        ⟨"assets/logo.txt", 4, "3598ce6f965b2481fe26316c06b30950c46ac7f8e7229f104aa78f579997668d"⟩]
    | .newManifest => some
      [⟨"Codex-Router.exe", 8, "3141cb23271cde49cf698369762722ec5ba606726da3101412e892103a747a06"⟩]
    | _ => none
  size
    | .oldRouter | .newRouter => 8
    | .oldManifest => 236
    | .newManifest => 119
    | _ => 4
  sha256
    | .oldRouter => "e5b952e0bf549dc5cb2bf858bd79a4af5eb4d9b0e0e01b010775983e9cc58808"
    | .newRouter => "3141cb23271cde49cf698369762722ec5ba606726da3101412e892103a747a06"
    | .logo => "3598ce6f965b2481fe26316c06b30950c46ac7f8e7229f104aa78f579997668d"
    | _ => ""

/-- The user has a file beside one of the release. -/
def installed : DirTree Content where
  entries := [([], .dir), (["codex-router.exe"], .file .oldRouter), (["release-manifest.json"], .file .oldManifest),
    (["assets"], .dir), (["assets", "logo.txt"], .file .logo), (["assets", "notes.txt"], .file .notes)]
  root := rfl
  parents := FileTree.parents_of_dropLast (by decide +kernel)
  nodup := by decide +kernel

/-- The new release has no assets. -/
def staged : DirTree Content where
  entries := [([], .dir), (["codex-router.exe"], .file .newRouter), (["release-manifest.json"], .file .newManifest)]
  root := rfl
  parents := FileTree.parents_of_dropLast (by decide +kernel)
  nodup := by decide +kernel

/-- The user's file cannot be moved. -/
theorem transactional_notMoved :
    Transactional libs (fun step => step = .preserve ["assets", "notes.txt"]) installed staged none := by
  refine (transactional_iff ?_).mpr ?_
  · intro step hstep
    rw [decide_eq_false_iff_not]
    rintro rfl
    cases hstep
  · rintro ⟨-, -, -, before, path, after, -, ⟨-, hfails⟩, -⟩
    cases of_decide_eq_true hfails

/-- The directory of the user's file cannot be created. -/
theorem not_transactional_noParent : RollbackWorks (fun step => step = .createParent ["assets", "notes.txt"])
    ∧ ¬ Transactional libs (fun step => step = .createParent ["assets", "notes.txt"]) installed staged none := by
  constructor
  · intro step hstep
    rw [decide_eq_false_iff_not]
    rintro rfl
    cases hstep
  · intro htransactional
    have hend : (match beginUpdateTransaction libs (fun step => step = .createParent ["assets", "notes.txt"])
        installed staged none with
      | (.error _, world) => world.staged.isNone
      | (.ok _, _) => false) = true := by decide +kernel
    cases hrun : beginUpdateTransaction libs (fun step => step = .createParent ["assets", "notes.txt"])
        installed staged none with
    | mk result world =>
      rw [hrun] at hend
      cases result with
      | ok transaction => cases hend
      | error e =>
        obtain ⟨-, release, hstaged, -⟩ := htransactional.error e world hrun
        dsimp only at hend
        rw [hstaged] at hend
        cases hend

end UpdateRun

end CodexRouter
