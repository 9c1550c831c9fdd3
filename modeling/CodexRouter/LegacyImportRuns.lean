/-
# Legacy imports in a run

What an import does to the tables is an entry of the journal and some new rows and links (`importObject_eq_ok`): no row
that was there changes.  As the admin requests never write the journal, an import that has succeeded stays done: it can
be tried again at any later time, whatever happens in between, and does nothing to the tables (`import_staysDone`).
-/
import CodexRouter.LegacyImportUndo

namespace CodexRouter

open Text

/-! ## Tables that grow -/

/-- No row or link is lost or changed. -/
structure StateTables.Grows (s t : StateTables) : Prop where
  accounts : s.accounts.Evolves Eq t.accounts
  groups : s.groups.Evolves Eq t.groups
  proxies : s.proxies.Evolves Eq t.proxies
  routes : s.routes.Evolves Eq t.routes
  apiKeys : s.apiKeys.Evolves Eq t.apiKeys
  links : s.accountGroups <+: t.accountGroups

namespace StateTables.Grows

variable {s t u : StateTables}

theorem refl (s : StateTables) : s.Grows s where
  accounts := .refl (fun _ => rfl) _
  groups := .refl (fun _ => rfl) _
  proxies := .refl (fun _ => rfl) _
  routes := .refl (fun _ => rfl) _
  apiKeys := .refl (fun _ => rfl) _
  links := List.prefix_rfl

theorem trans (h : s.Grows t) (h' : t.Grows u) : s.Grows u where
  accounts := h.accounts.trans Eq.trans h'.accounts
  groups := h.groups.trans Eq.trans h'.groups
  proxies := h.proxies.trans Eq.trans h'.proxies
  routes := h.routes.trans Eq.trans h'.routes
  apiKeys := h.apiKeys.trans Eq.trans h'.apiKeys
  links := h.links.trans h'.links

end StateTables.Grows

section

variable {Bytes : Type} {libs : ImportLibs Bytes} {now : String} {prepared : ℤ → Option PreparedOAuth}
  {s t u : StateTables} {object : LegacyObject} {isNew : Bool}

/-- The API keys behind an object: those before it, or one more. -/
def KeysTakenUp (libs : ImportLibs Bytes) (object : LegacyObject) (s t : StateTables) : Prop :=
  t.apiKeys = s.apiKeys ∨ ∃ key, object = .apiKey key ∧ ∃ row, s.apiKeys.insertAt key.id row = some t.apiKeys
    ∧ row.keyHmac = libs.hmacHex ("key:" ++ key.value)

/-- The tables behind an object: those before it with new rows and links, and an entry of the journal. -/
def TakenUp (libs : ImportLibs Bytes) (object : LegacyObject) (s t : StateTables) : Prop :=
  ∃ u newId, s.Grows u ∧ u.journal = s.journal ∧ KeysTakenUp libs object s u ∧ t = journalRecord libs u object newId

theorem takenUp_intro {newId : ℤ} (h : s.Grows u) (hjournal : u.journal = s.journal)
    (hkeys : KeysTakenUp libs object s u) : TakenUp libs object s (journalRecord libs u object newId) :=
  ⟨u, newId, h, hjournal, hkeys, rfl⟩

theorem takenUp_group {group : LegacyGroup} (h : importGroup libs group s = (isNew, t)) :
    TakenUp libs (.group group) s t := by
  rw [importGroup] at h
  split at h
  · cases h
    exact takenUp_intro (.refl s) rfl (Or.inl rfl)
  · rename_i groups hinsert
    cases h
    exact takenUp_intro { StateTables.Grows.refl s with groups := Table.evolves_insertAt (fun _ => rfl) hinsert } rfl
      (Or.inl rfl)

theorem takenUp_proxy {proxy : LegacyProxy} (h : importProxy libs proxy s = (isNew, t)) :
    TakenUp libs (.proxy proxy) s t := by
  rw [importProxy] at h
  split at h
  · cases h
    exact takenUp_intro (.refl s) rfl (Or.inl rfl)
  · rename_i proxies hinsert
    cases h
    exact takenUp_intro { StateTables.Grows.refl s with proxies := Table.evolves_insertAt (fun _ => rfl) hinsert } rfl
      (Or.inl rfl)

theorem takenUp_route {route : LegacyCompositeRoute} (h : importRoute libs route s = .ok (isNew, t)) :
    TakenUp libs (.compositeRoute route) s t := by
  rw [importRoute] at h
  split at h
  · cases h
  · rename_i id store hinsert
    obtain ⟨routes, hroutes, -, -, rfl⟩ := StateTables.insertRoute_eq_ok hinsert
    cases h
    exact takenUp_intro { StateTables.Grows.refl s with routes := Table.evolves_insertAt (fun _ => rfl) hroutes } rfl
      (Or.inl rfl)

theorem takenUp_apiKey {key : LegacyApiKey} (h : importApiKey libs key s = .ok (isNew, t)) :
    TakenUp libs (.apiKey key) s t := by
  rw [importApiKey] at h
  split at h
  · cases h
  · dsimp only at h
    split at h
    · cases h
      exact takenUp_intro (.refl s) rfl (Or.inl rfl)
    · rename_i apiKeys hinsert
      split at h
      · cases h
        exact takenUp_intro { StateTables.Grows.refl s with apiKeys := Table.evolves_insertAt (fun _ => rfl) hinsert } rfl
          (Or.inr ⟨key, rfl, _, hinsert, rfl⟩)
      · cases h

theorem takenUp_account {account : LegacyAccount} {prepared : Option PreparedOAuth}
    (h : importAccount libs now prepared account s = .ok (isNew, t)) : TakenUp libs (.account account) s t := by
  rw [importAccount] at h
  split at h
  · cases h
  · dsimp only at h
    split at h
    · cases h
      exact takenUp_intro (.refl s) rfl (Or.inl rfl)
    · rename_i authIndex authFile source hsource hnone
      generalize hinserted : (if AccountRow.weightFits _ then _ else none : Option (Table _ _)) = inserted at h
      have haccounts : s.accounts.Evolves Eq (inserted.getD s.accounts) := by
        split at hinserted
        · cases inserted with
          | none => exact .refl (fun _ => rfl) _
          | some accounts => exact Table.evolves_insertAt (fun _ => rfl) hinserted
        · subst hinserted
          exact .refl (fun _ => rfl) _
      obtain ⟨links, heq, -⟩ := StateTables.linkAll_eq { s with accounts := inserted.getD s.accounts } account.id
        account.groupIds
      split at h
      · cases h
        refine takenUp_intro ?_ (by rw [heq]) (Or.inl (by rw [heq]))
        rw [heq]
        exact { StateTables.Grows.refl s with accounts := haccounts, links := List.prefix_append _ _ }
      · cases h

theorem importObject_eq_ok (h : importObject libs now prepared s object = .ok (isNew, t)) :
    TakenUp libs object s t := by
  cases object with
  | group group =>
    rw [importObject, Except.ok.injEq] at h
    exact takenUp_group h
  | compositeRoute route => exact takenUp_route h
  | proxy proxy =>
    rw [importObject, Except.ok.injEq] at h
    exact takenUp_proxy h
  | apiKey key => exact takenUp_apiKey h
  | account account => exact takenUp_account h

/-! ## The journal -/

theorem enters_of_takenUp (h : TakenUp libs object s t)
    (hnone : (legacyImporter libs now prepared).journal s (journalKey libs object) = none) :
    (legacyImporter libs now prepared).Keeps s t
      ∧ (legacyImporter libs now prepared).journal t (journalKey libs object) = some (snapshotHash libs object) := by
  obtain ⟨u, newId, -, hjournal, -, rfl⟩ := h
  refine ⟨fun key digest hkey => ?_, ?_⟩
  · have hne : key ≠ journalKey libs object := by
      rintro rfl
      rw [hnone] at hkey
      cases hkey
    dsimp only [legacyImporter, journalRecord] at hkey ⊢
    rw [if_neg hne, hjournal, hkey]
  · dsimp only [legacyImporter, journalRecord]
    rw [if_pos rfl]
    rfl

theorem legacyImporter_enters : (legacyImporter libs now prepared).Enters :=
  fun _ _ _ _ hact hnone => enters_of_takenUp (importObject_eq_ok hact) hnone

/-! ## An import that succeeds -/

/-- What an import that succeeds has done. -/
theorem importLegacyExport_ok {faults : ImportFaults} {e : LegacyExport} {s t : ImportState Bytes}
    {summary : MigrationSummary} (h : importLegacyExport libs faults now e s = some (t, .ok summary)) :
    ∃ apiSecrets pending prepared flags, apiAccountSecrets e.accounts = .ok apiSecrets
      ∧ pendingOAuth e.accounts = .ok pending ∧ checkExisting libs s.files faults.existing pending = .ok ()
      ∧ FilesWritten libs pending s.files t.files ∧ t.secrets = writeAll s.secrets apiSecrets
      ∧ (legacyImporter libs now prepared).takeAll (fun n => if faults.object n then some .fault else none) e.objects
          s.store = .ok (flags, t.store)
      ∧ summary = summarize e.objects flags := by
  rw [importLegacyExport] at h
  split at h
  · cases h
  · rename_i apiSecrets happly
    dsimp only at h
    rcases prepareOAuthFiles_spec libs faults s.files e.accounts with
      ⟨prepared, created, pending, hok, hpending, hcheck, -, hwritten⟩ | ⟨cause, heq⟩
    · rw [hok] at h
      dsimp only at h
      have hempty : Readable [] := fun _ h => absurd h List.not_mem_nil
      rcases writeApiSecrets_spec faults.secretRead faults.secretWrite s.secrets [] apiSecrets hempty with
        ⟨previous, heq, -, -⟩ | ⟨-, restored, -, heq, -⟩ | ⟨i, -, -, heq⟩ <;> rw [heq] at h <;> dsimp only at h
      · split at h
        · cases h
        · split at h
          · cases h
          · cases h
          · rename_i flags store htaken
            cases h
            exact ⟨apiSecrets, pending, prepared, flags, happly, hpending, hcheck, hwritten, rfl, htaken, rfl⟩
      · cases h
      · cases h
    · rw [heq] at h
      cases h

/-- The secrets of an import are those of its API accounts. -/
theorem apiAccountSecrets_mem {accounts : List LegacyAccount} {apiSecrets : List (String × String)}
    (h : apiAccountSecrets accounts = .ok apiSecrets) {entry : String × String} (hentry : entry ∈ apiSecrets) :
    ∃ account ∈ accounts, eqIgnoreAsciiCase account.accountType "oauth" = false
      ∧ entry.1 = accountSecretName account.id := by
  induction accounts generalizing apiSecrets with
  | nil =>
    rw [apiAccountSecrets] at h
    cases h
    cases hentry
  | cons account rest ih =>
    have hrest : ∀ {more}, apiAccountSecrets rest = .ok more → entry ∈ more → ∃ other ∈ account :: rest,
        eqIgnoreAsciiCase other.accountType "oauth" = false ∧ entry.1 = accountSecretName other.id := by
      intro more hmore hmem
      obtain ⟨other, hother, hspec⟩ := ih hmore hmem
      exact ⟨other, List.mem_cons_of_mem _ hother, hspec⟩
    rw [apiAccountSecrets] at h
    split at h
    · exact hrest h hentry
    · rename_i hapi
      split at h
      · cases h
      · split at h
        · cases h
        · rename_i secret hsecret more hmore
          cases h
          rcases List.mem_cons.mp hentry with rfl | hmem
          · exact ⟨account, List.mem_cons_self, eq_false_of_ne_true hapi, rfl⟩
          · exact hrest hmore hmem

theorem readText_writeAll_of_notMem {entries : List (String × String)} {name : String}
    (h : name ∉ entries.map Prod.fst) (secrets : AccountSecrets) :
    (writeAll secrets entries).readText name = secrets.readText name := by
  induction entries generalizing secrets with
  | nil => rfl
  | cons first rest ih =>
    rw [List.map_cons, List.mem_cons, not_or] at h
    rw [writeAll, List.foldl_cons, ← writeAll, ih h.2, AccountSecrets.readText_writeText, Function.update_of_ne h.1]

/-- What is read of a secret that is written does not depend on what was there. -/
theorem readText_writeAll_of_mem {entries : List (String × String)} {name : String} (h : name ∈ entries.map Prod.fst)
    (secrets secrets' : AccountSecrets) :
    (writeAll secrets entries).readText name = (writeAll secrets' entries).readText name := by
  induction entries generalizing secrets secrets' with
  | nil => cases h
  | cons first rest ih =>
    rw [writeAll, writeAll, List.foldl_cons, List.foldl_cons, ← writeAll, ← writeAll]
    by_cases hrest : name ∈ rest.map Prod.fst
    · exact ih hrest _ _
    · have hname : name = first.1 := (List.mem_cons.mp h).resolve_right hrest
      rw [readText_writeAll_of_notMem hrest, readText_writeAll_of_notMem hrest, AccountSecrets.readText_writeText,
        AccountSecrets.readText_writeText, hname, Function.update_self, Function.update_self]

theorem convertAccount_eq_ok {account : LegacyAccount} {item : PendingOAuth} (h : convertAccount account = .ok item) :
    buildAuthFile item.provider account.credentials = some item.document
      ∧ item.authFile = "legacy-" ++ item.provider.canonicalName ++ "-" ++ toString account.id ++ ".json" := by
  rw [convertAccount] at h
  split at h
  · cases h
  · split at h
    · cases h
    · rename_i provider hprovider document hdocument
      rw [Except.ok.injEq] at h
      subst h
      exact ⟨hdocument, rfl⟩

/-- What is to be written comes of an account. -/
theorem pendingOAuth_mem {accounts : List LegacyAccount} {pending : List PendingOAuth}
    (h : pendingOAuth accounts = .ok pending) {item : PendingOAuth} (hitem : item ∈ pending) :
    ∃ account ∈ accounts, convertAccount account = .ok item := by
  induction accounts generalizing pending with
  | nil =>
    rw [pendingOAuth] at h
    cases h
    cases hitem
  | cons account rest ih =>
    have hrest : ∀ {more}, pendingOAuth rest = .ok more → item ∈ more →
        ∃ other ∈ account :: rest, convertAccount other = .ok item := by
      intro more hmore hmem
      obtain ⟨other, hother, hspec⟩ := ih hmore hmem
      exact ⟨other, List.mem_cons_of_mem _ hother, hspec⟩
    rw [pendingOAuth] at h
    split at h
    · split at h
      · cases h
      · rename_i first hfirst
        split at h
        · cases h
        · rename_i more hmore
          cases h
          rcases List.mem_cons.mp hitem with rfl | hmem
          · exact ⟨account, List.mem_cons_self, hfirst⟩
          · exact hrest hmore hmem
    · exact hrest h hitem

/-- The names of the providers differ in their first four letters. -/
theorem canonicalName_take (provider : OAuthProvider) :
    ∃ first rest, provider.canonicalName.toList = first ++ rest ∧ first.length = 4
      ∧ ∀ provider' : OAuthProvider, provider'.canonicalName.toList.take 4 = first → provider = provider' := by
  refine ⟨provider.canonicalName.toList.take 4, provider.canonicalName.toList.drop 4, (List.take_append_drop _ _).symm,
    ?_⟩
  cases provider <;> refine ⟨by decide +kernel, fun provider' h => ?_⟩ <;> cases provider' <;>
    first
    | rfl
    | exact absurd h (by decide +kernel)

/-- A name of a converted file tells the provider, and what the account is called in the journal. -/
theorem authFile_inj {provider provider' : OAuthProvider} {id id' : ℤ}
    (h : "legacy-" ++ provider.canonicalName ++ "-" ++ toString id ++ ".json"
      = "legacy-" ++ provider'.canonicalName ++ "-" ++ toString id' ++ ".json") :
    provider = provider' ∧ toString id = toString id' := by
  have hlist := congrArg String.toList h
  simp only [String.toList_append, List.append_assoc, List.append_cancel_left_eq] at hlist
  have hprovider : provider = provider' := by
    obtain ⟨first, rest, heq, hlength, hinj⟩ := canonicalName_take provider
    obtain ⟨first', rest', heq', hlength', -⟩ := canonicalName_take provider'
    refine hinj provider' ?_
    rw [heq, heq', List.append_assoc, List.append_assoc] at hlist
    rw [heq', ← hlength', List.take_left]
    exact (List.append_inj_left hlist (hlength.trans hlength'.symm)).symm
  subst hprovider
  rw [List.append_cancel_left_eq, List.append_cancel_left_eq, List.append_cancel_right_eq] at hlist
  exact ⟨rfl, String.toList_inj.mp hlist⟩

theorem checkExisting_eq_ok {files : String → Option Bytes} {faults : ℕ → Bool} {pending : List PendingOAuth}
    (h : checkExisting libs files faults pending = .ok ()) :
    ∀ item ∈ pending, ∀ bytes, files item.authFile = some bytes → libs.decode bytes = some item.document := by
  induction pending generalizing faults with
  | nil => exact fun _ h => absurd h List.not_mem_nil
  | cons item rest ih =>
    rw [checkExisting] at h
    split at h
    · rename_i hnone
      refine List.forall_mem_cons.mpr ⟨fun bytes hbytes => ?_, ih h⟩
      rw [hnone] at hbytes
      cases hbytes
    · rename_i bytes hthere
      split at h
      · cases h
      · split at h
        · cases h
        · rename_i existing hexisting
          split at h
          · rename_i hsame
            refine List.forall_mem_cons.mpr ⟨fun other hother => ?_, ih h⟩
            rw [hthere, Option.some.injEq] at hother
            rw [← hother, hexisting, hsame]
          · cases h

/-- Files with the right documents pass the check. -/
theorem checkExisting_of {files : String → Option Bytes} {pending : List PendingOAuth}
    (h : ∀ item ∈ pending, ∀ bytes, files item.authFile = some bytes → libs.decode bytes = some item.document) :
    checkExisting libs files (fun _ => false) pending = .ok () := by
  induction pending with
  | nil => rfl
  | cons item rest ih =>
    rw [List.forall_mem_cons] at h
    rw [checkExisting]
    split
    · exact ih h.2
    · rename_i bytes hthere
      rw [if_neg Bool.false_ne_true, h.1 bytes hthere]
      dsimp only
      rw [if_pos rfl]
      exact ih h.2

/-- Where all files are there, none is written. -/
theorem writePending_of_there {files : String → Option Bytes} {pending : List PendingOAuth} {faults : ℕ → Bool}
    {created : List String} {prepared : ℤ → Option PreparedOAuth}
    (h : ∀ item ∈ pending, (files item.authFile).isSome) :
    ∃ prepared', writePending libs faults files created prepared pending = (files, .ok (prepared', created)) := by
  induction pending generalizing faults prepared with
  | nil => exact ⟨prepared, rfl⟩
  | cons item rest ih =>
    rw [List.forall_mem_cons] at h
    rw [writePending]
    split
    · exact ih h.2
    · rename_i hnone
      rw [hnone] at h
      exact absurd h.1 Bool.false_ne_true

theorem summarize_skipped (objects : List LegacyObject) :
    summarize objects (List.replicate objects.length false)
      = ⟨fun _ => 0, fun kind => objects.countP fun object => object.kind = kind⟩ := by
  have hzip : objects.zip (List.replicate objects.length false) = objects.map fun object => (object, false) := by
    induction objects with
    | nil => rfl
    | cons object rest ih => rw [List.length_cons, List.replicate_succ, List.zip_cons_cons, ih, List.map_cons]
  rw [summarize, hzip]
  congr 1 <;> funext kind
  · simp [List.countP_map]
  · simp [List.countP_map, Function.comp_def]

/-- An import that succeeds can be repeated at once: every object is passed over, and the tables, the auth directory and
what is read of the secrets stay as they are.  The digests must tell the accounts of the export apart. -/
theorem import_again {faults : ImportFaults} {e : LegacyExport} {s t : ImportState Bytes} {summary : MigrationSummary}
    (h : importLegacyExport libs faults now e s = some (t, .ok summary))
    (hbytes : ∀ document, libs.decode (libs.encode document) = some document)
    (hdigest : ∀ account ∈ e.accounts, ∀ other ∈ e.accounts,
      snapshotHash libs (.account account) = snapshotHash libs (.account other) → account = other) (now' : String) :
    ∃ u, importLegacyExport libs {} now' e t
        = some (u, .ok ⟨fun _ => 0, fun kind => e.objects.countP fun object => object.kind = kind⟩)
      ∧ u.store = t.store ∧ u.files = t.files ∧ u.secrets.readText = t.secrets.readText := by
  obtain ⟨apiSecrets, pending, prepared, flags, happly, hpending, hcheck, hwritten, hsecrets, htaken, -⟩ :=
    importLegacyExport_ok h
  obtain ⟨-, hjournaled⟩ := Importer.takeAll_journaled legacyImporter_enters htaken
  have hobject : ∀ account ∈ e.accounts, LegacyObject.account account ∈ e.objects := fun account haccount =>
    List.mem_append_right _ (List.mem_map_of_mem haccount)
  have hsame : ∀ item ∈ pending, ∀ item' ∈ pending, item.authFile = item'.authFile →
      item.document = item'.document := by
    intro item hitem item' hitem' hname
    obtain ⟨account, haccount, hconvert⟩ := pendingOAuth_mem hpending hitem
    obtain ⟨account', haccount', hconvert'⟩ := pendingOAuth_mem hpending hitem'
    obtain ⟨hdocument, hfile⟩ := convertAccount_eq_ok hconvert
    obtain ⟨hdocument', hfile'⟩ := convertAccount_eq_ok hconvert'
    obtain ⟨hprovider, hid⟩ := authFile_inj (hfile.symm.trans (hname.trans hfile'))
    have hkey : journalKey libs (.account account) = journalKey libs (.account account') :=
      congrArg (Prod.mk LegacyKind.account.objectType) hid
    have hentry := hjournaled _ (hobject account haccount)
    have hentry' := hjournaled _ (hobject account' haccount')
    dsimp only [legacyImporter] at hentry hentry'
    rw [hkey, hentry', Option.some.injEq] at hentry
    have heq := hdigest account haccount account' haccount' hentry.symm
    rw [← heq, ← hprovider, hdocument, Option.some.injEq] at hdocument'
    exact hdocument'
  have hdocuments : ∀ item ∈ pending, ∀ bytes, t.files item.authFile = some bytes →
      libs.decode bytes = some item.document := by
    intro item hitem bytes hthere
    rcases hwritten.new _ bytes hthere with hold | ⟨item', hitem', hname, rfl⟩
    · exact checkExisting_eq_ok hcheck item hitem bytes hold
    · rw [hbytes, hsame item' hitem' item hitem hname]
  have hfiles : ∃ prepared', prepareOAuthFiles libs {} t.files e.accounts = (t.files, .ok (prepared', [])) := by
    rw [prepareOAuthFiles, hpending]
    cases pending with
    | nil => exact ⟨_, rfl⟩
    | cons item rest =>
      dsimp only
      rw [checkExisting_of hdocuments]
      exact writePending_of_there hwritten.made
  obtain ⟨prepared', hfiles⟩ := hfiles
  have hempty : Readable [] := fun _ h => absurd h List.not_mem_nil
  obtain ⟨previous, hwrites⟩ : ∃ previous, writeApiSecrets (fun _ => false) (fun _ => false) t.secrets [] apiSecrets
      = (writeAll t.secrets apiSecrets, .ok previous) := by
    rcases writeApiSecrets_spec (fun _ => false) (fun _ => false) t.secrets [] apiSecrets hempty with
      ⟨previous, heq, -, -⟩ | ⟨-, -, hwrite, -, -⟩ | ⟨-, -, hread, -⟩
    · exact ⟨previous, heq⟩
    · cases hwrite
    · cases hread
  have hagain : (legacyImporter libs now' prepared').takeAll (fun _ => none) e.objects t.store
      = .ok (List.replicate e.objects.length false, t.store) := Importer.takeAll_again hjournaled
  refine ⟨⟨t.store, t.files, writeAll t.secrets apiSecrets⟩, ?_, rfl, rfl, ?_⟩
  · rw [importLegacyExport, happly]
    dsimp only
    rw [hfiles]
    dsimp only
    rw [hwrites]
    dsimp only
    rw [if_neg Bool.false_ne_true]
    simp only [Bool.false_eq_true, if_false]
    rw [hagain]
    dsimp only
    rw [summarize_skipped]
  · funext name
    by_cases hname : name ∈ apiSecrets.map Prod.fst
    · rw [hsecrets]
      exact readText_writeAll_of_mem hname _ _
    · exact readText_writeAll_of_notMem hname _

/-! ## Runs -/

/-- What happens to the control plane: an admin request, with the auth directory that it leaves, or an import. -/
inductive ControlEvent (Bytes : Type) where
  | admin (request : AdminRequest) (files : String → Option Bytes)
  | legacyImport (faults : ImportFaults) (now : String) (e : LegacyExport)

variable (adminLibs : AdminLibs) (libs)

/-- An event, as a step of a run; a panic ends it. -/
def controlStep (s : ImportState Bytes) : ControlEvent Bytes → Option (ImportState Bytes)
  | .admin request files =>
    some ⟨(performAdmin adminLibs ⟨s.store, s.secrets⟩ request).store, files,
      (performAdmin adminLibs ⟨s.store, s.secrets⟩ request).secrets⟩
  | .legacyImport faults now e => (importLegacyExport libs faults now e s).map Prod.fst

theorem StoreChange.journal {scope : Scope} (h : StoreChange scope s t) : t.journal = s.journal := by
  cases h with
  | link =>
    obtain ⟨links, heq, -⟩ := s.syncAccountGroups_eq _ _
    rw [heq]
  | newAccount | edit | delete | groups | routes | apiKeys => rfl

/-- Admin requests do not write the journal. -/
theorem journal_performAdmin (s : ControlState) (request : AdminRequest) :
    (performAdmin adminLibs s request).store.journal = s.store.journal :=
  changes_keep (I := fun u => u.journal = s.store.journal) (fun hs hchange => hchange.journal.trans hs)
    (changes_performAdmin request (within_all request s)) rfl

variable {adminLibs libs} {summary : MigrationSummary}

/-- No event takes an entry out of the journal. -/
theorem keeps_controlStep {x y : ImportState Bytes} {event : ControlEvent Bytes}
    (h : controlStep libs adminLibs x event = some y) :
    (legacyImporter libs now prepared).Keeps x.store y.store := by
  cases event with
  | admin request files =>
    rw [controlStep, Option.some.injEq] at h
    subst h
    intro key digest hkey
    dsimp only [legacyImporter] at hkey ⊢
    rw [journal_performAdmin]
    exact hkey
  | legacyImport faults now' e =>
    rw [controlStep, Option.map_eq_some_iff] at h
    obtain ⟨⟨y', outcome⟩, himport, rfl⟩ := h
    cases outcome with
    | error error =>
      rw [(importLegacyExport_error himport).1]
      exact .refl _
    | ok summary =>
      obtain ⟨-, -, prepared', flags, -, -, -, -, -, htaken, -⟩ := importLegacyExport_ok himport
      exact (Importer.takeAll_journaled legacyImporter_enters htaken).1

/-- What an import that succeeds has entered is there for ever. -/
theorem journaled_run {faults : ImportFaults} {e : LegacyExport} {x y z : ImportState Bytes}
    {events : List (ControlEvent Bytes)} (h : importLegacyExport libs faults now e x = some (y, .ok summary))
    (hrun : exec (controlStep libs adminLibs) anyStep y events = some z) (now' : String)
    (prepared' : ℤ → Option PreparedOAuth) : (legacyImporter libs now' prepared').Journaled z.store e.objects := by
  obtain ⟨-, -, prepared, flags, -, -, -, -, -, htaken, -⟩ := importLegacyExport_ok h
  have hjournaled : (legacyImporter libs now' prepared').Journaled y.store e.objects :=
    (Importer.takeAll_journaled legacyImporter_enters htaken).2
  refine hjournaled.keep (exec_invariant (I := fun w => (legacyImporter libs now' prepared').Keeps y.store w.store)
    (fun _ _ _ hw _ hstep => hw.trans (keeps_controlStep hstep)) hrun (.refl _))

/-- Whatever has happened since an import succeeded, the same import again does nothing to the tables; if it succeeds,
every object is passed over.  What was deleted since does not come back. -/
theorem import_staysDone {faults faults' : ImportFaults} {e : LegacyExport} {now' : String}
    {x y z w : ImportState Bytes} {events : List (ControlEvent Bytes)} {outcome : Except ImportError MigrationSummary}
    (h : importLegacyExport libs faults now e x = some (y, .ok summary))
    (hrun : exec (controlStep libs adminLibs) anyStep y events = some z)
    (hagain : importLegacyExport libs faults' now' e z = some (w, outcome)) :
    w.store = z.store ∧ ∀ summary', outcome = .ok summary' →
      summary' = ⟨fun _ => 0, fun kind => e.objects.countP fun object => object.kind = kind⟩ := by
  cases outcome with
  | error error => exact ⟨(importLegacyExport_error hagain).1, fun _ h => by cases h⟩
  | ok summary' =>
    obtain ⟨-, -, prepared', flags, -, -, -, -, -, htaken, hsummary⟩ := importLegacyExport_ok hagain
    obtain ⟨hstore, rfl⟩ := Importer.takeAll_of_journaled (journaled_run h hrun now' prepared') htaken
    refine ⟨hstore, fun other hother => ?_⟩
    rw [Except.ok.injEq] at hother
    rw [← hother, hsummary, summarize_skipped]

/-- An object that was imported once is refused when it has changed: no export with it is ever taken up, not even in
part. -/
theorem changed_refused {faults faults' : ImportFaults} {e e' : LegacyExport} {now' : String}
    {x y z w : ImportState Bytes} {events : List (ControlEvent Bytes)} {outcome : Except ImportError MigrationSummary}
    {object' : LegacyObject} (h : importLegacyExport libs faults now e x = some (y, .ok summary))
    (hrun : exec (controlStep libs adminLibs) anyStep y events = some z) (hobject : object ∈ e.objects)
    (hobject' : object' ∈ e'.objects) (hkey : journalKey libs object = journalKey libs object')
    (hchanged : snapshotHash libs object ≠ snapshotHash libs object')
    (hagain : importLegacyExport libs faults' now' e' z = some (w, outcome)) :
    (∃ error, outcome = .error error) ∧ w.store = z.store ∧ w.files = z.files := by
  cases outcome with
  | error error =>
    obtain ⟨hstore, hfiles, -⟩ := importLegacyExport_error hagain
    exact ⟨⟨error, rfl⟩, hstore, hfiles⟩
  | ok summary' =>
    obtain ⟨-, -, prepared', flags, -, -, -, -, -, htaken, -⟩ := importLegacyExport_ok hagain
    have hentry := journaled_run h hrun now' prepared' object hobject
    dsimp only [legacyImporter] at hentry
    rw [hkey] at hentry
    obtain ⟨error, herror⟩ : ∃ error, (legacyImporter libs now' prepared').takeAll
        (fun n => if faults'.object n then some .fault else none) e'.objects z.store = .error error :=
      Importer.takeAll_changed legacyImporter_enters hobject' hentry hchanged
    rw [herror] at htaken
    cases htaken

end

/-! ### A run -/

/-- The digests of a group and of two keys, and their identities. -/
def sampleImportLibs : ImportLibs Value where
  sha256Hex := fun text =>
    if startsWith text "\x7b\"id\":1,\"name\":\"main\",\"status\"" then
      "5c3c4c98f50fa83c39fd9a6c3a5b722653aa8110cdecc22739e3709ec8f75392"
    else if contains text "sk-1" then "6d1cf51542776940a0cb1769def04ad749cc26eb431ee4d5fcc65a20687033ab"
    else "ad0aa03e158c91187adeb03e0504ac71975aefd2a0706824d6fa4defda39f85a"
  hmacHex := fun text =>
    if text = "key:sk-1" then "1acbe7ba6ab4786644018e472cc4d9fffe5258dcafc23b425fca17f22df231bd"
    else "d6e51bb3489c049679f4d7562720939dddce75a987add673c0c97aef4ba365f0"
  absolute := fun name => "C:\\auth\\" ++ name
  encode := id
  decode := some

/-- A key of a group. -/
def sampleKey (value : String) : LegacyApiKey := ⟨1, "main", value, some 1⟩

def sampleExport (value : String) : LegacyExport where
  groups := [{ id := 1, name := "main" }]
  apiKeys := [sampleKey value]

def sampleStart : ImportState Value := ⟨.empty, fun _ => none, sampleSecrets⟩

/-- The state behind the deletion of the key. -/
def deleteSample (x : ImportState Value) : ImportState Value :=
  let t := performAdmin sampleLibs ⟨x.store, x.secrets⟩ (.deleteKey 1)
  ⟨t.store, x.files, t.secrets⟩

theorem exists_of_isOk {r : Option (ImportState Value × Except ImportError MigrationSummary)}
    (h : (r.any fun x => x.2.isOk) = true) : ∃ t summary, r = some (t, .ok summary) := by
  cases r with
  | none => cases h
  | some x =>
    obtain ⟨t, outcome⟩ := x
    cases outcome with
    | error error => cases h
    | ok summary => exact ⟨t, summary, rfl⟩

/-- The import succeeds, and so it does behind the deletion of the key; the export with another key is refused there. -/
theorem sampleImport_spec :
    ∃ x summary, importLegacyExport sampleImportLibs {} "2026-01-01" (sampleExport "sk-1") sampleStart = some (x, .ok summary)
      ∧ (∃ y summary', importLegacyExport sampleImportLibs {} "2026-01-02" (sampleExport "sk-1") (deleteSample x)
        = some (y, .ok summary'))
      ∧ ∃ z outcome, importLegacyExport sampleImportLibs {} "2026-01-02" (sampleExport "sk-2") (deleteSample x)
        = some (z, outcome) := by
  have hruns : ((importLegacyExport sampleImportLibs {} "2026-01-01" (sampleExport "sk-1") sampleStart).any fun x =>
      x.2.isOk
        && ((importLegacyExport sampleImportLibs {} "2026-01-02" (sampleExport "sk-1") (deleteSample x.1)).any fun y =>
          y.2.isOk)
        && (importLegacyExport sampleImportLibs {} "2026-01-02" (sampleExport "sk-2") (deleteSample x.1)).isSome) = true := by
    decide +kernel
  obtain ⟨⟨x, outcome⟩, h, hx⟩ := (Option.any_eq_true ..).mp hruns
  rw [Bool.and_eq_true, Bool.and_eq_true] at hx
  obtain ⟨⟨hok, hagain⟩, hchanged⟩ := hx
  cases outcome with
  | error error => cases hok
  | ok summary =>
    obtain ⟨⟨z, outcome⟩, hz⟩ := Option.isSome_iff_exists.mp hchanged
    exact ⟨x, summary, h, exists_of_isOk hagain, z, outcome, hz⟩

theorem import_again_sample :
    ∃ x u : ImportState Value, importLegacyExport sampleImportLibs {} "2026-01-02" (sampleExport "sk-1") x
        = some (u, .ok ⟨fun _ => 0, fun kind => (sampleExport "sk-1").objects.countP fun object => object.kind = kind⟩)
      ∧ u.store = x.store ∧ u.files = x.files ∧ u.secrets.readText = x.secrets.readText := by
  obtain ⟨x, summary, h, -⟩ := sampleImport_spec
  exact ⟨x, import_again h (fun _ => rfl) (fun _ h => absurd h List.not_mem_nil) "2026-01-02"⟩

/-- The deleted key is passed over. -/
theorem import_staysDone_sample :
    ∃ (x z : ImportState Value) (summary' : MigrationSummary), z.store = (deleteSample x).store
      ∧ summary' = ⟨fun _ => 0, fun kind => (sampleExport "sk-1").objects.countP fun object => object.kind = kind⟩ := by
  obtain ⟨x, summary, h, ⟨y, summary', hagain⟩, -⟩ := sampleImport_spec
  have hrun : exec (controlStep sampleImportLibs sampleLibs) anyStep x
      [.admin (.deleteKey 1) x.files] = some (deleteSample x) := rfl
  obtain ⟨hstore, hsummary⟩ := import_staysDone h hrun hagain
  exact ⟨x, y, summary', hstore, hsummary summary' rfl⟩

/-- The key with another value is refused. -/
theorem changed_refused_sample :
    ∃ (x z : ImportState Value) (outcome : Except ImportError MigrationSummary),
      importLegacyExport sampleImportLibs {} "2026-01-02" (sampleExport "sk-2") (deleteSample x) = some (z, outcome)
      ∧ (∃ error, outcome = .error error) ∧ z.store = (deleteSample x).store ∧ z.files = (deleteSample x).files := by
  obtain ⟨x, summary, h, -, z, outcome, hchanged⟩ := sampleImport_spec
  have hrun : exec (controlStep sampleImportLibs sampleLibs) anyStep x
      [.admin (.deleteKey 1) x.files] = some (deleteSample x) := rfl
  have hmem : ∀ value, LegacyObject.apiKey (sampleKey value) ∈ (sampleExport value).objects :=
    fun _ => List.mem_cons_of_mem _ List.mem_cons_self
  have hdigests : snapshotHash sampleImportLibs (.apiKey (sampleKey "sk-1"))
      ≠ snapshotHash sampleImportLibs (.apiKey (sampleKey "sk-2")) := by
    decide +kernel
  have hkey : journalKey sampleImportLibs (.apiKey (sampleKey "sk-1"))
      = journalKey sampleImportLibs (.apiKey (sampleKey "sk-2")) := rfl
  exact ⟨x, z, outcome, hchanged, changed_refused h hrun (hmem "sk-1") (hmem "sk-2") hkey hdigests hchanged⟩

end CodexRouter
