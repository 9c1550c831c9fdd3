/-
# The composite routes of a group

What `composite_routes` is for is a map from the keys of routes to their data.  A deleted route keeps its row and its
key, and is no entry of the map.

`reconcile_composite_routes` replaces the entries of a group by those of the request (`reconcile_refines`): a route that
was deleted gets its row back.  `create_composite_route` does not: a deleted route stands in the way of a new one with
its key for ever, as long as its group is not reconciled (`deletedRoute_blocks`).
-/
import CodexRouter.AdminRuns

namespace CodexRouter

open Text

/-- The data of a route. -/
structure RouteData where
  priority : ℤ
  enabled : Bool
  payload : Value

/-- The entry of a row, if it is not deleted. -/
def CompositeRouteRow.data (row : CompositeRouteRow) : Option RouteData :=
  if row.deleted then none else some ⟨row.priority, row.enabled, row.payload⟩

/-- The map of the routes. -/
def StateTables.liveRoute (s : StateTables) (key : RouteKey) : Option RouteData :=
  (s.routes.find fun row => row.key = key).bind fun e => e.2.data

/-- The entries of some rows, written into a map one after the other. -/
def enterRoutes (live : RouteKey → Option RouteData) (rows : List CompositeRouteRow) : RouteKey → Option RouteData :=
  rows.foldl (fun live row => Function.update live row.key row.data) live

section

variable {s s' : StateTables} {key : RouteKey} {data : RouteData} {row : CompositeRouteRow} {id groupId : ℤ}

theorem liveRoute_eq_some_iff :
    s.liveRoute key = some data ↔ ∃ id row, s.routes.get id = some row ∧ row.key = key ∧ row.data = some data := by
  rw [StateTables.liveRoute, Option.bind_eq_some_iff]
  constructor
  · rintro ⟨⟨id, row⟩, hfind, hdata⟩
    obtain ⟨hget, hkey⟩ := Table.get_of_find hfind
    exact ⟨id, row, hget, of_decide_eq_true hkey, hdata⟩
  · rintro ⟨id, row, hget, hkey, hdata⟩
    cases hfind : s.routes.find fun row => row.key = key with
    | none => exact absurd (Table.find_eq_none_iff.mp hfind id row hget) (by simp [hkey])
    | some e =>
      obtain ⟨hget', hkey'⟩ := Table.get_of_find (hfind.trans (congrArg some (Prod.mk.eta (p := e)).symm))
      have hid : e.1 = id :=
        Table.eq_of_key hget' hget rfl (congrArg some ((of_decide_eq_true hkey').trans hkey.symm))
      rw [hid, hget, Option.some.injEq] at hget'
      exact ⟨e, rfl, hget' ▸ hdata⟩

/-- A row is the entry of its key. -/
theorem liveRoute_of_get (hget : s.routes.get id = some row) : s.liveRoute row.key = row.data := by
  refine Option.ext fun data => ?_
  rw [liveRoute_eq_some_iff]
  constructor
  · rintro ⟨other, row', hget', hkey, hdata⟩
    have hid : other = id := Table.eq_of_key hget' hget rfl (congrArg some hkey)
    rw [hid, hget, Option.some.injEq] at hget'
    exact hget' ▸ hdata
  · exact fun hdata => ⟨id, row, hget, rfl, hdata⟩

theorem liveRoute_of_none (h : ∀ id row, s.routes.get id = some row → row.key ≠ key) : s.liveRoute key = none := by
  refine Option.eq_none_iff_forall_ne_some.mpr fun data hdata => ?_
  obtain ⟨id, row, hget, hkey, -⟩ := liveRoute_eq_some_iff.mp hdata
  exact h id row hget hkey

/-- A key is in the table, or in nobody's way. -/
theorem key_cases (s : StateTables) (key : RouteKey) :
    (∃ id row, s.routes.get id = some row ∧ row.key = key) ∨ ∀ id row, s.routes.get id = some row → row.key ≠ key := by
  by_cases h : ∃ id row, s.routes.get id = some row ∧ row.key = key
  · exact Or.inl h
  · exact Or.inr fun id row hget hkey => h ⟨id, row, hget, hkey⟩

theorem liveRoute_deleteRoutesOf (s : StateTables) (groupId : ℤ) (key : RouteKey) :
    (s.deleteRoutesOf groupId).liveRoute key = if key.groupId = groupId then none else s.liveRoute key := by
  have hget : ∀ id, (s.deleteRoutesOf groupId).routes.get id
      = (s.routes.get id).map fun row => { row with deleted := row.deleted || row.key.groupId = groupId } :=
    fun id => Table.get_updateAll _ _
  rcases key_cases s key with ⟨id, row, hrow, rfl⟩ | hnone
  · rw [liveRoute_of_get hrow]
    have hdeleted := hget id
    rw [hrow, Option.map_some] at hdeleted
    refine (liveRoute_of_get hdeleted).trans ?_
    rw [CompositeRouteRow.data, CompositeRouteRow.data]
    by_cases hgroup : row.key.groupId = groupId
    · simp [hgroup]
    · simp [hgroup]
  · rw [liveRoute_of_none hnone, ite_self, liveRoute_of_none]
    intro id row hrow
    rw [hget] at hrow
    obtain ⟨old, hold, rfl⟩ := Option.map_eq_some_iff.mp hrow
    exact hnone id old hold

/-- Taking up a route enters its data, and every row keeps its id and its key. -/
theorem liveRoute_upsertRoute (h : s.upsertRoute row = .ok s') (hlive : row.deleted = false) (key : RouteKey) :
    s'.liveRoute key = Function.update s.liveRoute row.key row.data key
      ∧ s.routes.Evolves (fun old new => new.key = old.key) s'.routes := by
  rw [StateTables.upsertRoute] at h
  split at h
  · rename_i hfind
    split at h
    · cases h
    · rename_i id store hinsert
      cases h
      obtain ⟨routes, hroutes, -, -, rfl⟩ := StateTables.insertRoute_eq_ok hinsert
      refine ⟨?_, Table.evolves_insertAt (fun _ => rfl) hroutes⟩
      have hnew : routes.get (s.routes.last + 1) = some row := by rw [(Table.get_insert hroutes _).2, if_pos rfl]
      by_cases hkey : key = row.key
      · subst hkey
        rw [Function.update_self]
        exact liveRoute_of_get (s := { s with routes := routes }) hnew
      · rw [Function.update_of_ne hkey]
        rcases key_cases s key with ⟨id, old, hold, rfl⟩ | hnone
        · rw [liveRoute_of_get hold]
          have hkept : routes.get id = some old := by
            rw [(Table.get_insert hroutes id).2, if_neg, hold]
            rintro rfl
            rw [s.routes.get_next] at hold
            cases hold
          exact liveRoute_of_get (s := { s with routes := routes }) hkept
        · rw [liveRoute_of_none hnone, liveRoute_of_none]
          intro id old hold
          rw [(Table.get_insert hroutes id).2] at hold
          split at hold
          · cases hold
            exact fun h => hkey h.symm
          · exact hnone id old hold
  · rename_i id old hfind
    obtain ⟨hget, hkey⟩ := Table.get_of_find hfind
    have hkey : old.key = row.key := of_decide_eq_true hkey
    split at h
    · cases h
    · rename_i routes hroutes
      cases h
      refine ⟨?_, Table.evolves_update (fun _ => rfl) hroutes fun _ _ => rfl⟩
      have hother : ∀ other, routes.get other = if other = id then
          some { old with priority := row.priority, enabled := row.enabled, payload := row.payload, deleted := false }
          else s.routes.get other := by
        intro other
        rw [(Table.get_update hroutes other).2, hget, Option.map_some]
      by_cases hsame : key = row.key
      · subst hsame
        rw [Function.update_self, ← hkey]
        refine (liveRoute_of_get (s := { s with routes := routes }) ((hother id).trans (if_pos rfl))).trans ?_
        rw [CompositeRouteRow.data, CompositeRouteRow.data, hlive]
      · rw [Function.update_of_ne hsame]
        rcases key_cases s key with ⟨other, r, hr, rfl⟩ | hnone
        · rw [liveRoute_of_get hr]
          have hkept : routes.get other = some r := by
            rw [hother, if_neg, hr]
            rintro rfl
            rw [hget, Option.some.injEq] at hr
            exact hsame (hr ▸ hkey)
          exact liveRoute_of_get (s := { s with routes := routes }) hkept
        · rw [liveRoute_of_none hnone, liveRoute_of_none]
          intro other r hr
          rw [hother] at hr
          split at hr
          · cases hr
            exact hnone id old hget
          · exact hnone other r hr

theorem liveRoute_upsertRoutes {rows : List CompositeRouteRow} (hlive : ∀ row ∈ rows, row.deleted = false)
    (h : upsertRoutes s rows = .ok s') :
    s'.liveRoute = enterRoutes s.liveRoute rows ∧ s.routes.Evolves (fun old new => new.key = old.key) s'.routes := by
  induction rows generalizing s with
  | nil =>
    rw [upsertRoutes] at h
    cases h
    exact ⟨rfl, Table.Evolves.refl (R := fun old new : CompositeRouteRow => new.key = old.key) (fun _ => rfl) _⟩
  | cons row rest ih =>
    rw [List.forall_mem_cons] at hlive
    rw [upsertRoutes] at h
    split at h
    · cases h
    · rename_i store hupsert
      have hstep := liveRoute_upsertRoute hupsert hlive.1
      obtain ⟨hrest, hkept⟩ := ih hlive.2 h
      rw [hrest, funext fun key => (hstep key).1]
      exact ⟨rfl, (hstep row.key).2.trans (fun h h' => h'.trans h) hkept⟩

end

/-! ## Reconciling a group -/

/-- The routes of a group are not reconciled. -/
def keepsRoutes (groupId : ℤ) (_ : ControlState) (request : AdminRequest) : Bool :=
  replacedGroup request ≠ some groupId

theorem CompositeRouteRow.Kept.trans {groupId : ℤ} {row row' row'' : CompositeRouteRow} (h : row.Kept groupId row')
    (h' : row'.Kept groupId row'') : row.Kept groupId row'' where
  group := h'.group.trans h.group
  deleted := fun hgroup hdeleted =>
    have ⟨hdeleted', hkey⟩ := h.deleted hgroup hdeleted
    have ⟨hdeleted'', hkey'⟩ := h'.deleted (h.group.trans hgroup) hdeleted'
    ⟨hdeleted'', hkey'.trans hkey⟩

theorem CompositeRouteRow.Kept.refl (groupId : ℤ) (row : CompositeRouteRow) : row.Kept groupId row :=
  ⟨rfl, fun _ hdeleted => ⟨hdeleted, rfl⟩⟩

variable {libs : AdminLibs}

/-- Whatever is requested other than to reconcile its group, a deleted route stays deleted, keeps its row and its key, and
a new route with this key is refused. -/
theorem deletedRoute_blocks {requests : List AdminRequest} {s t : ControlState} {id : ℤ} {row : CompositeRouteRow}
    (h : exec (adminStep libs) (keepsRoutes row.key.groupId) s requests = some t)
    (hget : s.store.routes.get id = some row) (hdeleted : row.deleted = true) {body : Value}
    (hnamed : routeNamed body = true) (hkey : (routeRow row.key.groupId body).key = row.key) :
    (∃ row', t.store.routes.get id = some row' ∧ row'.deleted = true ∧ row'.key = row.key)
      ∧ createCompositeRoute t row.key.groupId body = (t, .failure 409 "CR-STO-0008" "duplicate composite route") := by
  have hkept : s.store.routes.Evolves (CompositeRouteRow.Kept row.key.groupId) t.store.routes := by
    refine run_invariant ⟨fun _ => True, fun groupId => groupId ≠ row.key.groupId, false, True⟩
      (I := fun u => s.store.routes.Evolves (CompositeRouteRow.Kept row.key.groupId) u.routes)
      (fun request _ u hok => ⟨fun _ _ => trivial, fun groupId hgroup heq => ?_, fun h => absurd h Bool.false_ne_true,
        fun _ => trivial⟩)
      (fun hu hchange => hu.trans CompositeRouteRow.Kept.trans ?_) h (.refl (CompositeRouteRow.Kept.refl _) _)
    · rw [keepsRoutes, hgroup, heq] at hok
      simp at hok
    · cases hchange with
      | routes _ hkept => exact hkept row.key.groupId fun hne => hne rfl
      | link =>
        obtain ⟨links, heq, -⟩ := StateTables.syncAccountGroups_eq _ _ _
        rw [heq]
        exact .refl (CompositeRouteRow.Kept.refl _) _
      | newAccount | edit | delete | groups | apiKeys => exact .refl (CompositeRouteRow.Kept.refl _) _
  obtain ⟨row', hget', hrow'⟩ := hkept.2 id row hget
  obtain ⟨hdeleted', hkey'⟩ := hrow'.deleted rfl hdeleted
  refine ⟨⟨row', hget', hdeleted', hkey'⟩, ?_⟩
  have hinsert : t.store.routes.insert (routeRow row.key.groupId body) = none :=
    Table.insert_eq_none_iff.mpr ⟨id, row', hget', rfl, congrArg some (hkey'.trans hkey.symm)⟩
  rw [createCompositeRoute, if_neg (by rw [hnamed]; decide), StateTables.insertRoute, hinsert]

/-- The body of a route. -/
def sampleRoute : Value :=
  .object [("public_model", .string "gpt-5"), ("target_platform", .string "grok"), ("upstream_model", .string "grok-4")]

/-- The state behind the creation of a group, of a route in it and the deletion of the route. -/
def deletedRouteState : ControlState :=
  [.createGroup (.object [("name", .string "main")]), .createRoute 1 sampleRoute, .deleteRoute 1 1].foldl
    (performAdmin sampleLibs) (.start sampleSecrets)

/-- The change of a deleted route does not bring it back. -/
theorem deletedRoute_blocks_sample :
    (∃ row', (performAdmin sampleLibs deletedRouteState (.updateRoute 1 1 sampleRoute)).store.routes.get 1 = some row'
        ∧ row'.deleted = true ∧ row'.key = (routeRow 1 sampleRoute).key)
      ∧ createCompositeRoute (performAdmin sampleLibs deletedRouteState (.updateRoute 1 1 sampleRoute)) 1 sampleRoute
        = (performAdmin sampleLibs deletedRouteState (.updateRoute 1 1 sampleRoute),
          .failure 409 "CR-STO-0008" "duplicate composite route") :=
  have hrun : exec (adminStep sampleLibs) (keepsRoutes 1) deletedRouteState [.updateRoute 1 1 sampleRoute]
      = some (performAdmin sampleLibs deletedRouteState (.updateRoute 1 1 sampleRoute)) := rfl
  have hget : deletedRouteState.store.routes.get 1 = some { routeRow 1 sampleRoute with deleted := true } := rfl
  deletedRoute_blocks hrun hget rfl (by decide +kernel) rfl

end CodexRouter
