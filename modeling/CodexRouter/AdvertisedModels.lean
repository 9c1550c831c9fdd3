/-
# Advertised models are servable

The ids that are advertised and the routes that are published come out of the
same passes.  `Servable` is the agreement one expects of them: ids that differ,
a route for every id, a backend for every route, and no id left out that has a
backend.  It fails where the plan selects an account that `selected_oauth_ids`
leaves out; `servable_iff` says exactly when it holds.
-/
import CodexRouter.ServableRoutes

namespace CodexRouter

open Text

/-! ## The agreement -/

section

variable (cfg : RouterConfig) (plan : List ModelRoute) (platforms : List (ℤ × String))
  (isolated : List ℤ)

/-- A row that can answer requests: a joined API channel, or the row of an
account that is selected and in order. -/
def Backs (r : ModelRoute) : Prop :=
  (r.source ≠ "oauth" ∧ r.joinRouter = true)
    ∨ (r.source = "oauth" ∧ r.model.oauthAccountId ∈ selectedOauthIds cfg
      ∧ r.model.oauthAccountId ∉ isolated)

instance (r : ModelRoute) : Decidable (Backs cfg isolated r) :=
  inferInstanceAs (Decidable (_ ∨ _))

/-- The published routes. -/
def compositeRoutes : List CompositeRoute :=
  buildCompositeRoutes platforms isolated (servableRoutes plan isolated cfg)

/-- Every advertised model is servable and no servable model disappears.  Ids
are compared ignoring case. -/
structure Servable : Prop where
  distinct : ((visiblePublicModels plan isolated cfg).map toAsciiLowercase).Nodup
  routed : ∀ id ∈ visiblePublicModels plan isolated cfg,
    ∃ c ∈ compositeRoutes cfg plan platforms isolated,
      toAsciiLowercase c.publicModel = toAsciiLowercase id
  backed : ∀ c ∈ compositeRoutes cfg plan platforms isolated, ∃ r ∈ plan, Backs cfg isolated r
    ∧ r.catalogId = toAsciiLowercase c.publicModel
    ∧ compositePlatform r.model platforms = c.targetPlatform
  complete : ∀ r ∈ plan, r.includeInCatalog = true →
    r.catalogId ∉ (visiblePublicModels plan isolated cfg).map toAsciiLowercase →
    ∀ b ∈ plan, Backs cfg isolated b → b.catalogId ≠ r.catalogId

/-- An OAuth row that the plan lets join although `selected_oauth_ids` leaves
its account out. -/
def IsStray (r : ModelRoute) : Prop :=
  r.source = "oauth" ∧ r.joinRouter = true ∧ r.model.oauthAccountId ∉ selectedOauthIds cfg

instance (r : ModelRoute) : Decidable (IsStray cfg r) := inferInstanceAs (Decidable (_ ∧ _))

/-- Where the two rules of selection do no harm.  A stray catalog row whose id a
joined channel has must have a healthy duplicate; another stray row in order
whose id is served must have a backend on its own platform. -/
structure StraysCovered : Prop where
  catalog : ∀ o ∈ plan, IsStray cfg o → o.includeInCatalog = true →
    (∃ a ∈ plan, a.source ≠ "oauth" ∧ a.joinRouter = true ∧ a.catalogId = o.catalogId) →
    ∃ h ∈ plan, h.source = "oauth" ∧ Backs cfg isolated h ∧ h.catalogId = o.catalogId
  companion : ∀ s ∈ plan, IsStray cfg s → s.includeInCatalog = false →
    s.model.oauthAccountId ∉ isolated →
    (∃ b ∈ plan, Backs cfg isolated b ∧ b.catalogId = s.catalogId) →
    ∃ b ∈ plan, Backs cfg isolated b ∧ b.catalogId = s.catalogId
      ∧ compositePlatform b.model platforms = compositePlatform s.model platforms

/-- The key of the composite table, a text, tells the rows' ids and platforms
apart. -/
def KeysSeparate : Prop :=
  ∀ r ∈ plan, ∀ s ∈ plan,
    (compositeCandidate platforms r).key = (compositeCandidate platforms s).key →
      r.catalogId = s.catalogId
        ∧ compositePlatform r.model platforms = compositePlatform s.model platforms

instance : Decidable (KeysSeparate plan platforms) := inferInstanceAs (Decidable (∀ r ∈ plan, _))

end

/-- A platform without the separator can be read off the end of the key. -/
theorem append_bar_inj {a b p q : String} (hp : '|' ∉ p.toList) (hq : '|' ∉ q.toList)
    (h : a ++ "|" ++ p = b ++ "|" ++ q) : a = b ∧ p = q := by
  have hlist : a.toList ++ '|' :: p.toList = b.toList ++ '|' :: q.toList := by
    have h' := congrArg String.toList h
    simpa [String.toList_append] using h'
  have hrev : p.toList.reverse ++ '|' :: a.toList.reverse
      = q.toList.reverse ++ '|' :: b.toList.reverse := by
    have h' := congrArg List.reverse hlist
    simpa using h'
  obtain ⟨hpq, hab⟩ := append_cons_inj (by simpa using hp) (by simpa using hq) hrev
  exact ⟨String.toList_injective (List.reverse_inj.mp hab),
    String.toList_injective (List.reverse_inj.mp hpq)⟩

/-- The keys are separate when no platform contains the separator. -/
theorem keysSeparate_of_platforms {plan : List ModelRoute} {platforms : List (ℤ × String)}
    (h : ∀ r ∈ plan, '|' ∉ (compositePlatform r.model platforms).toList) :
    KeysSeparate plan platforms := by
  intro r hr s hs hkey
  exact append_bar_inj (h r hr) (h s hs) hkey

/-! ## Rows with a backend -/

section

variable {cfg : RouterConfig} {plan : List ModelRoute} {platforms : List (ℤ × String)}
  {isolated : List ℤ} {r s v : ModelRoute}

/-- An account that `selected_oauth_ids` has is selected by the plan. -/
theorem isSelected_of_mem (h : r.model.oauthAccountId ∈ selectedOauthIds cfg) :
    isSelected cfg r.model = true := by
  rw [isSelected]
  cases hids : cfg.oauthAccountIds with
  | none => simp
  | some ids =>
    have hmem : r.model.oauthAccountId ∈ ids := by
      simp [selectedOauthIds, hids] at h
      exact h.1
    simp [hmem]

/-- A row with a backend joins. -/
theorem joinRouter_of_backs (hw : WellPlanned cfg plan) (hr : r ∈ plan)
    (h : Backs cfg isolated r) : r.joinRouter = true := by
  rcases h with ⟨-, hjoin⟩ | ⟨ho, hsel, -⟩
  · exact hjoin
  · rw [hw.oauth_joined r hr ho]
    exact isSelected_of_mem hsel

/-- Two catalog rows with one id are the same row. -/
theorem eq_of_catalogId (hw : WellPlanned cfg plan) (hr : r ∈ plan) (hs : s ∈ plan)
    (hrcat : r.includeInCatalog = true) (hscat : s.includeInCatalog = true)
    (hid : r.catalogId = s.catalogId) : r = s :=
  List.inj_on_of_nodup_map hw.catalog_nodup (List.mem_filter.mpr ⟨hr, hrcat⟩)
    (List.mem_filter.mpr ⟨hs, hscat⟩) hid

/-- A visible row is servable. -/
theorem mem_servableRoutes_of_visible (h : v ∈ visibleRoutes plan isolated cfg) :
    v ∈ servableRoutes plan isolated cfg := List.mem_append_left _ h

/-- A joined row outside the catalog with a visible id is servable, unless its
account is isolated. -/
theorem mem_servableRoutes_of_companion (hr : r ∈ plan) (hcat : r.includeInCatalog = false)
    (hjoin : r.joinRouter = true) (hiso : r.source = "oauth" → r.model.oauthAccountId ∉ isolated)
    (hv : v ∈ visibleRoutes plan isolated cfg) (hid : v.catalogId = r.catalogId) :
    r ∈ servableRoutes plan isolated cfg := by
  refine List.mem_append_right _ (List.mem_filter.mpr ⟨hr, isCompanion_iff.mpr ?_⟩)
  exact ⟨hcat, hjoin, hid ▸ List.mem_map_of_mem hv, hiso⟩

theorem isCompositeSource_iff : isCompositeSource isolated r = true ↔
    (r.includeInCatalog = true ∨ r.joinRouter = true)
      ∧ (r.source = "oauth" → r.model.oauthAccountId ∉ isolated) := by
  simp [isCompositeSource, imp_iff_not_or]

/-- **Behind every visible row** stands a servable row of the same id with a
backend. -/
theorem exists_backing_of_visible (hw : WellPlanned cfg plan)
    (hv : v ∈ visibleRoutes plan isolated cfg) :
    ∃ s ∈ servableRoutes plan isolated cfg, isCompositeSource isolated s = true
      ∧ ∃ r ∈ plan, SameCard s r ∧ Backs cfg isolated r ∧ r.catalogId = v.catalogId := by
  obtain ⟨r, hr, hsame, hlisted, ⟨hcat, hadmit⟩ | hdup⟩ := mem_visibleRoutes hv
  · obtain ⟨-, -, hoauth⟩ := admitRow_eq_some hadmit
    by_cases ho : r.source = "oauth"
    · obtain ⟨hsel, hapi⟩ := hoauth ho
      by_cases hiso : r.model.oauthAccountId ∈ isolated
      -- the isolated account's id is that of a joined channel, a companion of the row
      · obtain ⟨a, ha, hao, hjoin, hid⟩ := mem_joinedApi.mp (hapi hiso)
        have hacat : a.includeInCatalog = false := by
          rw [Bool.eq_false_iff]
          intro hacat
          exact hao (eq_of_catalogId hw ha hr hacat hcat hid ▸ ho)
        have hid' : v.catalogId = a.catalogId := by rw [hsame.catalogId, hid]
        refine ⟨a, mem_servableRoutes_of_companion ha hacat hjoin (fun h => absurd h hao) hv hid',
          ?_, a, ha, SameCard.refl a, Or.inl ⟨hao, hjoin⟩, hid'.symm⟩
        exact isCompositeSource_iff.mpr ⟨Or.inr hjoin, fun h => absurd h hao⟩
      · refine ⟨v, mem_servableRoutes_of_visible hv, ?_, r, hr, hsame, Or.inr ⟨ho, hsel, hiso⟩,
          hsame.catalogId.symm⟩
        refine isCompositeSource_iff.mpr ⟨Or.inl hlisted, fun _ => ?_⟩
        rw [hsame.model]
        exact hiso
    · refine ⟨v, mem_servableRoutes_of_visible hv, ?_, r, hr, hsame,
        Or.inl ⟨ho, hw.catalog_joined r hr hcat⟩, hsame.catalogId.symm⟩
      refine isCompositeSource_iff.mpr ⟨Or.inl hlisted, fun h => absurd ?_ ho⟩
      rw [← hsame.source]
      exact h
  · obtain ⟨ho, -, -, hsel, hiso⟩ := isHealthyDuplicate_iff.mp hdup
    refine ⟨v, mem_servableRoutes_of_visible hv, ?_, r, hr, hsame, Or.inr ⟨ho, hsel, hiso⟩,
      hsame.catalogId.symm⟩
    refine isCompositeSource_iff.mpr ⟨Or.inl hlisted, fun _ => ?_⟩
    rw [hsame.model]
    exact hiso

/-- A servable row that gives a candidate has a backend, or is a stray companion
of a visible row. -/
theorem backs_or_stray (hw : WellPlanned cfg plan) (hs : s ∈ servableRoutes plan isolated cfg)
    (hsource : isCompositeSource isolated s = true) : ∃ r ∈ plan, SameCard s r
      ∧ (Backs cfg isolated r
        ∨ IsStray cfg r ∧ r.includeInCatalog = false ∧ r.model.oauthAccountId ∉ isolated
          ∧ ∃ v ∈ visibleRoutes plan isolated cfg, v.catalogId = r.catalogId) := by
  obtain ⟨-, hiso⟩ := isCompositeSource_iff.mp hsource
  rcases List.mem_append.mp hs with hv | hc
  · obtain ⟨r, hr, hsame, -, ⟨hcat, hadmit⟩ | hdup⟩ := mem_visibleRoutes hv
    · refine ⟨r, hr, hsame, Or.inl ?_⟩
      by_cases ho : r.source = "oauth"
      · refine Or.inr ⟨ho, ((admitRow_eq_some hadmit).2.2 ho).1, ?_⟩
        rw [← hsame.model]
        exact hiso (hsame.source.trans ho)
      · exact Or.inl ⟨ho, hw.catalog_joined r hr hcat⟩
    · obtain ⟨ho, -, -, hsel, hiso⟩ := isHealthyDuplicate_iff.mp hdup
      exact ⟨r, hr, hsame, Or.inl (Or.inr ⟨ho, hsel, hiso⟩)⟩
  · obtain ⟨hs, hcomp⟩ := List.mem_filter.mp hc
    obtain ⟨hcat, hjoin, hserved, -⟩ := isCompanion_iff.mp hcomp
    refine ⟨s, hs, SameCard.refl s, ?_⟩
    by_cases ho : s.source = "oauth"
    · by_cases hsel : s.model.oauthAccountId ∈ selectedOauthIds cfg
      · exact Or.inl (Or.inr ⟨ho, hsel, hiso ho⟩)
      · obtain ⟨v, hv, hid⟩ := List.mem_map.mp hserved
        exact Or.inr ⟨⟨ho, hjoin, hsel⟩, hcat, hiso ho, v, hv, hid⟩
    · exact Or.inl (Or.inl ⟨ho, hjoin⟩)

/-! ## Advertised ids -/

/-- The advertised ids are those of the visible rows. -/
theorem mem_visiblePublicModels {id : String} (h : id ∈ visiblePublicModels plan isolated cfg) :
    ∃ v ∈ visibleRoutes plan isolated cfg, v.publicModelId = id := by
  obtain ⟨s, hs, hf⟩ := mem_collectNew h
  split at hf
  · rename_i hlisted
    rcases List.mem_append.mp hs with hv | hc
    · exact ⟨s, hv, Option.some.inj hf⟩
    · have hcat := (isCompanion_iff.mp (List.mem_filter.mp hc).2).1
      rw [hcat] at hlisted
      cases hlisted
  · cases hf

/-- Every visible row is advertised. -/
theorem catalogId_mem_visiblePublicModels (hv : v ∈ visibleRoutes plan isolated cfg) :
    v.catalogId ∈ (visiblePublicModels plan isolated cfg).map toAsciiLowercase := by
  obtain ⟨-, -, -, hlisted, -⟩ := mem_visibleRoutes hv
  have hf : (if v.includeInCatalog then some v.publicModelId else none) = some v.publicModelId := by
    rw [if_pos hlisted]
  rcases @exists_mem_collectNew _ _ _ _ id
      (fun route : ModelRoute => if route.includeInCatalog then some route.publicModelId else none)
      [] _ v _ (mem_servableRoutes_of_visible hv) hf with hnil | ⟨id', hid', heq⟩
  · cases hnil
  · refine List.mem_map.mpr ⟨id', hid', ?_⟩
    rw [ModelRoute.catalogId]
    exact congrArg toAsciiLowercase heq

/-- No two advertised ids differ in case only. -/
theorem visiblePublicModels_distinct :
    ((visiblePublicModels plan isolated cfg).map toAsciiLowercase).Nodup := by
  have hcompanions : (plan.filter (isCompanion isolated
      ((visibleRoutes plan isolated cfg).map ModelRoute.catalogId))).filterMap
        (fun route => if route.includeInCatalog then some route.publicModelId else none) = [] := by
    rw [List.filterMap_eq_nil_iff]
    intro r hr
    rw [(isCompanion_iff.mp (List.mem_filter.mp hr).2).1, if_neg (by simp)]
  have hvisible : (visibleRoutes plan isolated cfg).filterMap
      (fun route => if route.includeInCatalog then some route.publicModelId else none)
        = (visibleRoutes plan isolated cfg).map ModelRoute.publicModelId := by
    rw [← List.filterMap_eq_map]
    refine List.filterMap_congr fun v hv => ?_
    obtain ⟨-, -, -, hlisted, -⟩ := mem_visibleRoutes hv
    rw [if_pos hlisted]
    rfl
  have hsub : (visiblePublicModels plan isolated cfg).Sublist
      ((visibleRoutes plan isolated cfg).map ModelRoute.publicModelId) := by
    have h := @collectNew_sublist _ _ _ _ id
      (fun route : ModelRoute => if route.includeInCatalog then some route.publicModelId else none)
      [] (servableRoutes plan isolated cfg)
    rw [servableRoutes, List.filterMap_append, hcompanions, hvisible, List.append_nil] at h
    exact h
  refine List.Nodup.sublist (hsub.map toAsciiLowercase) ?_
  rw [List.map_map]
  exact nodup_visibleRoutes

/-! ## Published routes -/

/-- A published route is the candidate of a servable row. -/
theorem mem_compositeRoutes {c : CompositeRoute}
    (h : c ∈ compositeRoutes cfg plan platforms isolated) :
    ∃ s ∈ servableRoutes plan isolated cfg, isCompositeSource isolated s = true
      ∧ compositeCandidate platforms s = c := by
  obtain ⟨e, he, rfl⟩ := List.mem_map.mp h
  obtain ⟨s, hs, heq⟩ := List.mem_map.mp (OrdMap.mem_collect he).1
  obtain ⟨hs, hsource⟩ := List.mem_filter.mp hs
  exact ⟨s, hs, hsource, heq⟩

/-- The key of a candidate has a published route. -/
theorem exists_mem_compositeRoutes (platforms : List (ℤ × String))
    (hs : s ∈ servableRoutes plan isolated cfg)
    (hsource : isCompositeSource isolated s = true) :
    ∃ c ∈ compositeRoutes cfg plan platforms isolated,
      c.key = (compositeCandidate platforms s).key := by
  have hmem : compositeCandidate platforms s ∈ ((servableRoutes plan isolated cfg).filter
      (isCompositeSource isolated)).map (compositeCandidate platforms) :=
    List.mem_map_of_mem (List.mem_filter.mpr ⟨hs, hsource⟩)
  obtain ⟨c, hc⟩ := @OrdMap.exists_mem_collect _ _ _ _ _ CompositeRoute.key
    (fun candidate existing => candidate.priority < existing.priority) _ _ hmem
  exact ⟨c, List.mem_map_of_mem hc, ((OrdMap.mem_collect hc).2).symm⟩

/-- A published route has a row of the plan with its candidate, which has a
backend or is a stray companion. -/
theorem exists_row_of_composite (hw : WellPlanned cfg plan) {c : CompositeRoute}
    (h : c ∈ compositeRoutes cfg plan platforms isolated) :
    ∃ r ∈ plan, compositeCandidate platforms r = c
      ∧ (Backs cfg isolated r
        ∨ IsStray cfg r ∧ r.includeInCatalog = false ∧ r.model.oauthAccountId ∉ isolated
          ∧ ∃ v ∈ visibleRoutes plan isolated cfg, v.catalogId = r.catalogId) := by
  obtain ⟨s, hs, hsource, rfl⟩ := mem_compositeRoutes h
  obtain ⟨r, hr, hsame, hr'⟩ := backs_or_stray hw hs hsource
  exact ⟨r, hr, (hsame.compositeCandidate platforms).symm, hr'⟩

/-- The route under a row's key has the row's id and platform. -/
theorem composite_of_key (hw : WellPlanned cfg plan) (hsep : KeysSeparate plan platforms)
    {c : CompositeRoute} (hc : c ∈ compositeRoutes cfg plan platforms isolated) (hr : r ∈ plan)
    (hkey : c.key = (compositeCandidate platforms r).key) :
    toAsciiLowercase c.publicModel = r.catalogId
      ∧ c.targetPlatform = compositePlatform r.model platforms := by
  obtain ⟨r', hr', rfl, -⟩ := exists_row_of_composite hw hc
  exact hsep r' hr' r hr hkey

/-! ## The agreement holds exactly when the strays are covered -/

/-- Every advertised id has a published route. -/
theorem routed_of_wellPlanned (hw : WellPlanned cfg plan) (hsep : KeysSeparate plan platforms) :
    ∀ id ∈ visiblePublicModels plan isolated cfg,
      ∃ c ∈ compositeRoutes cfg plan platforms isolated,
        toAsciiLowercase c.publicModel = toAsciiLowercase id := by
  intro id hid
  obtain ⟨v, hv, rfl⟩ := mem_visiblePublicModels hid
  obtain ⟨s, hs, hsource, r, hr, hsame, -, hrid⟩ := exists_backing_of_visible hw hv
  obtain ⟨c, hc, hkey⟩ := exists_mem_compositeRoutes platforms hs hsource
  rw [hsame.compositeCandidate] at hkey
  exact ⟨c, hc, (composite_of_key hw hsep hc hr hkey).1.trans hrid⟩

/-- A catalog id with a backend is visible, unless a stray catalog row is not
covered. -/
theorem exists_visible_of_backs (hw : WellPlanned cfg plan)
    (hcov : StraysCovered cfg plan platforms isolated) {o b : ModelRoute} (ho : o ∈ plan)
    (hcat : o.includeInCatalog = true) (hb : b ∈ plan) (hbacks : Backs cfg isolated b)
    (hid : b.catalogId = o.catalogId) :
    ∃ v ∈ visibleRoutes plan isolated cfg, v.catalogId = o.catalogId := by
  have hadmit : (o.source = "oauth" → o.model.oauthAccountId ∈ selectedOauthIds cfg) →
      (o.source = "oauth" → o.model.oauthAccountId ∈ isolated →
        o.catalogId ∈ joinedApi plan) →
      ∃ v ∈ visibleRoutes plan isolated cfg, v.catalogId = o.catalogId := by
    intro hsel hiso
    obtain ⟨o', ho', hid'⟩ := exists_admitRow hsel hiso
    obtain ⟨v, hv, hvid⟩ := exists_visible_of_admitRow ho hcat ho'
    exact ⟨v, hv, hvid.trans hid'⟩
  have hpromote : ∀ h ∈ plan, h.source = "oauth" → Backs cfg isolated h →
      h.catalogId = o.catalogId → h ≠ o →
      ∃ v ∈ visibleRoutes plan isolated cfg, v.catalogId = o.catalogId := by
    intro h hh hoauth hhealthy hhid hne
    have hhcat : h.includeInCatalog = false := by
      rw [Bool.eq_false_iff]
      intro hhcat
      exact hne (eq_of_catalogId hw hh ho hhcat hcat hhid)
    have hdup : isHealthyDuplicate isolated cfg h = true := by
      obtain ⟨hno, -⟩ | ⟨-, hsel, hiso⟩ := hhealthy
      · exact absurd hoauth hno
      · exact isHealthyDuplicate_iff.mpr ⟨hoauth, hhcat,
          joinRouter_of_backs hw hh (Or.inr ⟨hoauth, hsel, hiso⟩), hsel, hiso⟩
    obtain ⟨h', hh', hid'⟩ := exists_promote hdup ⟨o, ho, hcat, hhid.symm⟩
    obtain ⟨v, hv, hvid⟩ := exists_visible_of_promote hh hh'
    exact ⟨v, hv, (hvid.trans hid').trans hhid⟩
  by_cases hoauth : o.source = "oauth"
  · by_cases hsel : o.model.oauthAccountId ∈ selectedOauthIds cfg
    · by_cases hiso : o.model.oauthAccountId ∈ isolated
      -- the catalog row's own account is isolated: the backend is another row
      · obtain ⟨hno, hjoin⟩ | ⟨hbo, hbsel, hbiso⟩ := hbacks
        · exact hadmit (fun _ => hsel) fun _ _ => mem_joinedApi.mpr ⟨b, hb, hno, hjoin, hid⟩
        · exact hpromote b hb hbo (Or.inr ⟨hbo, hbsel, hbiso⟩) hid
            (fun heq => hbiso (heq ▸ hiso))
      · exact hadmit (fun _ => hsel) fun _ h => absurd h hiso
    · have hstray : IsStray cfg o := ⟨hoauth, hw.catalog_joined o ho hcat, hsel⟩
      obtain ⟨hno, hjoin⟩ | ⟨hbo, hbsel, hbiso⟩ := hbacks
      · obtain ⟨h, hh, hho, hhb, hhid⟩ :=
          hcov.catalog o ho hstray hcat ⟨b, hb, hno, hjoin, hid⟩
        refine hpromote h hh hho hhb hhid (fun heq => ?_)
        obtain ⟨hno, -⟩ | ⟨-, hhsel, -⟩ := hhb
        · exact hno hho
        · exact hsel (heq ▸ hhsel)
      · exact hpromote b hb hbo (Or.inr ⟨hbo, hbsel, hbiso⟩) hid
          (fun heq => hsel (heq ▸ hbsel))
  · exact hadmit (fun h => absurd h hoauth) fun h => absurd h hoauth

/-- Covered strays do no harm. -/
theorem servable_of_straysCovered (hw : WellPlanned cfg plan) (hsep : KeysSeparate plan platforms)
    (hcov : StraysCovered cfg plan platforms isolated) : Servable cfg plan platforms isolated where
  distinct := visiblePublicModels_distinct
  routed := routed_of_wellPlanned hw hsep
  backed := by
    intro c hc
    obtain ⟨r, hr, rfl, hbacks | ⟨hstray, hcat, hiso, v, hv, hvid⟩⟩ := exists_row_of_composite hw hc
    · exact ⟨r, hr, hbacks, rfl, rfl⟩
    · obtain ⟨-, -, -, b, hb, -, hbb, hbid⟩ := exists_backing_of_visible hw hv
      exact hcov.companion r hr hstray hcat hiso ⟨b, hb, hbb, hbid.trans hvid⟩
  complete := by
    intro o ho hcat hmissing b hb hbacks hid
    obtain ⟨v, hv, hvid⟩ := exists_visible_of_backs hw hcov ho hcat hb hbacks hid
    exact hmissing (hvid ▸ catalogId_mem_visiblePublicModels hv)

/-- In a servable plan an id of the catalog with a backend is visible. -/
theorem exists_visible_of_servable (hserv : Servable cfg plan platforms isolated) {o b : ModelRoute}
    (ho : o ∈ plan) (hcat : o.includeInCatalog = true) (hb : b ∈ plan)
    (hbacks : Backs cfg isolated b) (hid : b.catalogId = o.catalogId) :
    ∃ v ∈ visibleRoutes plan isolated cfg, v.catalogId = o.catalogId := by
  by_contra hnone
  refine hserv.complete o ho hcat (fun hmem => hnone ?_) b hb hbacks hid
  obtain ⟨id, hid', heq⟩ := List.mem_map.mp hmem
  obtain ⟨v, hv, rfl⟩ := mem_visiblePublicModels hid'
  exact ⟨v, hv, heq⟩

/-- The strays of a servable plan are covered. -/
theorem straysCovered_of_servable (hw : WellPlanned cfg plan) (hsep : KeysSeparate plan platforms)
    (hserv : Servable cfg plan platforms isolated) :
    StraysCovered cfg plan platforms isolated where
  catalog := by
    rintro o ho ⟨hoauth, -, hsel⟩ hcat ⟨a, ha, hno, hjoin, hid⟩
    obtain ⟨v, hv, hvid⟩ :=
      exists_visible_of_servable hserv ho hcat ha (Or.inl ⟨hno, hjoin⟩) hid
    obtain ⟨r, hr, hsame, -, ⟨hrcat, hadmit⟩ | hdup⟩ := mem_visibleRoutes hv
    -- the visible row is no catalog row: that would be the stray row itself
    · have heq : r = o := eq_of_catalogId hw hr ho hrcat hcat (hsame.catalogId.symm.trans hvid)
      subst heq
      exact absurd ((admitRow_eq_some hadmit).2.2 hoauth).1 hsel
    · obtain ⟨hro, -, -, hrsel, hriso⟩ := isHealthyDuplicate_iff.mp hdup
      exact ⟨r, hr, hro, Or.inr ⟨hro, hrsel, hriso⟩, hsame.catalogId.symm.trans hvid⟩
  companion := by
    rintro s hs ⟨ho, hjoin, hsel⟩ hcat hiso ⟨b, hb, hbacks, hid⟩
    obtain ⟨o, hoplan, hocat, hoid⟩ := hw.oauth_catalog s hs ho hjoin
    obtain ⟨v, hv, hvid⟩ :=
      exists_visible_of_servable hserv hoplan hocat hb hbacks (hid.trans hoid.symm)
    have hserved : s ∈ servableRoutes plan isolated cfg :=
      mem_servableRoutes_of_companion hs hcat hjoin (fun _ => hiso) hv (hvid.trans hoid)
    have hsource : isCompositeSource isolated s = true :=
      isCompositeSource_iff.mpr ⟨Or.inr hjoin, fun _ => hiso⟩
    obtain ⟨c, hc, hkey⟩ := exists_mem_compositeRoutes platforms hserved hsource
    obtain ⟨hcid, hcplat⟩ := composite_of_key hw hsep hc hs hkey
    obtain ⟨r, hr, hrbacks, hrid, hrplat⟩ := hserv.backed c hc
    exact ⟨r, hr, hrbacks, hrid.trans hcid, hrplat.trans hcplat⟩

end

/-- **Servability of a plan.**  The advertised models, the published routes and
the backends agree exactly when the strays are covered. -/
theorem servable_iff {libs : Libs} {cfg : RouterConfig} {plan : List ModelRoute}
    {platforms : List (ℤ × String)} {isolated : List ℤ}
    (hplan : buildRoutePlan libs cfg = .ok plan) (hsep : KeysSeparate plan platforms) :
    Servable cfg plan platforms isolated ↔ StraysCovered cfg plan platforms isolated :=
  ⟨straysCovered_of_servable (wellPlanned_buildRoutePlan hplan) hsep,
    servable_of_straysCovered (wellPlanned_buildRoutePlan hplan) hsep⟩

/-! ## A card without an account -/

/-- The card of an account. -/
def accountCard (accountId : ℤ) : ModelConfig where
  model := "gpt-5.6-sol"
  source := "oauth"
  oauthAccountId := accountId
  oauthPlatform := "openai"

/-- A relay channel of the same model. -/
def channelCard : ModelConfig where
  model := "gpt-5.6-sol"
  baseUrl := "https://relay.example/v1"

/-- The two cards. -/
def twoCards (accountId : ℤ) : RouterConfig where
  models := [accountCard accountId, channelCard]

/-- Their plan: the channel stands in for the account under the id that the
account's card lists. -/
def twoCardsPlan (accountId : ℤ) : List ModelRoute :=
  [{ index := 0
     model := accountCard accountId
     source := "oauth"
     canonicalModelId := "gpt-5.6-sol"
     identityKey := "openai:gpt-5.6-sol"
     identityDisplayCandidate := "ChatGPT-5.6-Sol"
     publicModelId := "gpt-5.6-sol"
     requestModelIds := ["gpt-5.6-sol"]
     includeInCatalog := true
     joinRouter := true
     isOauthFallback := false
     isMergedOauthRoute := true
     servedBy := .oauth },
   { index := 1
     model := channelCard
     source := "apikey"
     canonicalModelId := "gpt-5.6-sol"
     identityKey := "openai:gpt-5.6-sol"
     identityDisplayCandidate := "ChatGPT-5.6-Sol"
     publicModelId := "gpt-5.6-sol"
     requestModelIds := ["gpt-5.6-sol"]
     includeInCatalog := false
     joinRouter := true
     isOauthFallback := true
     isMergedOauthRoute := false
     servedBy := .api }]

theorem buildRoutePlan_twoCards :
    buildRoutePlan plainLibs (twoCards 7) = .ok (twoCardsPlan 7)
      ∧ buildRoutePlan plainLibs (twoCards 0) = .ok (twoCardsPlan 0) := by
  decide +kernel

/-- With the account isolated, the channel takes the model over. -/
theorem servable_twoCards : Servable (twoCards 7) (twoCardsPlan 7) [(7, "openai")] [7] := by
  have hsep : KeysSeparate (twoCardsPlan 7) [(7, "openai")] :=
    keysSeparate_of_platforms (by decide +kernel)
  refine (servable_iff buildRoutePlan_twoCards.1 hsep).mpr ?_
  have hnone : ∀ o ∈ twoCardsPlan 7, ¬ IsStray (twoCards 7) o := by decide +kernel
  exact ⟨fun o ho hstray => absurd hstray (hnone o ho),
    fun s hs hstray => absurd hstray (hnone s hs)⟩

/-- The same cards with the account id left out: the plan lets the channel stand
in for the account and lists the id through the account's card, which is then
dropped, and the id disappears with it. -/
theorem not_servable_of_missing_account :
    ¬ ∀ (libs : Libs) (cfg : RouterConfig) (plan : List ModelRoute)
        (platforms : List (ℤ × String)) (isolated : List ℤ),
        buildRoutePlan libs cfg = .ok plan → Servable cfg plan platforms isolated := by
  intro h
  have hserv := h _ _ _ [] [] buildRoutePlan_twoCards.2
  have hmissing : visiblePublicModels (twoCardsPlan 0) [] (twoCards 0) = [] := by decide +kernel
  have hrows : ∃ o ∈ twoCardsPlan 0, o.includeInCatalog = true
      ∧ ∃ b ∈ twoCardsPlan 0, Backs (twoCards 0) [] b ∧ b.catalogId = o.catalogId := by
    decide +kernel
  obtain ⟨o, ho, hcat, b, hb, hbacks, hid⟩ := hrows
  exact hserv.complete o ho hcat (by simp [hmissing]) b hb hbacks hid

end CodexRouter
