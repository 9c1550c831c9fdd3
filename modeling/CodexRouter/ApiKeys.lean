/-
# API keys

`api_keys` has the digests of the keys only.  What a client may rely on is what it was told: an answer to
`create_api_key` gives out a key with an id, and answers to `update_api_key` and `delete_api_key` change its status or
take it back.  `data_key_valid` agrees with that after every run (`dataKeyValid_iff`).

The keys of a legacy export are stored with another digest: none of them is ever valid.
-/
import CodexRouter.LegacyImportRuns

namespace CodexRouter

open Text

/-- What the answers have said: the key that was given out with an id, and its status. -/
abbrev KeyRing : Type := ℤ → Option (String × String)

/-- The key of an answer to `create_api_key`. -/
def KeyRing.give (ring : KeyRing) (data : Value) : KeyRing :=
  match (data.get "id").bind Value.asInt, data.getStr "key" with
  | some id, some key => Function.update ring id (some (key, "active"))
  | _, _ => ring

/-- The status of a key that was changed; the empty one leaves it. -/
def KeyRing.setStatus (ring : KeyRing) (id : ℤ) (status : String) : KeyRing :=
  if status = "" then ring else Function.update ring id ((ring id).map fun e => (e.1, status))

section

variable {Bytes : Type} (libs : ImportLibs Bytes) (adminLibs : AdminLibs)

/-- What the answer to a request says. -/
def KeyRing.hear (ring : KeyRing) (s : ControlState) : AdminRequest → KeyRing
  | .createKey generated body =>
    match (createApiKey adminLibs s generated body).2 with
    | .success data => ring.give data
    | _ => ring
  | .updateKey id body =>
    match (updateApiKey s id body).2 with
    | .success _ => ring.setStatus id (jsonString (sanitizeStatePayload body) "status")
    | _ => ring
  | .deleteKey id =>
    match (deleteApiKey s id).2 with
    | .success _ => Function.update ring id none
    | _ => ring
  | _ => ring

/-- What is heard of an event. -/
def KeyRing.hearEvent (ring : KeyRing) (s : ImportState Bytes) : ControlEvent Bytes → KeyRing
  | .admin request _ => ring.hear adminLibs ⟨s.store, s.secrets⟩ request
  | .legacyImport _ _ _ => ring

/-- An event, as a step of a run in which the answers are heard. -/
def ringStep (x : ImportState Bytes × KeyRing) (event : ControlEvent Bytes) : Option (ImportState Bytes × KeyRing) :=
  (controlStep libs adminLibs x.1 event).map fun t => (t, x.2.hearEvent adminLibs x.1 event)

/-- The keys of the export of an event. -/
def ControlEvent.importedKeys : ControlEvent Bytes → List LegacyApiKey
  | .admin _ _ => []
  | .legacyImport _ _ e => e.apiKeys

end

/-! ## The table and the answers -/

/-- The table has what was said, and beside that only keys of legacy exports. -/
structure KeysMatch (sha256Hex : String → String) (imported : String → Prop) (ring : KeyRing)
    (t : Table ApiKeyRow fun row => some row.keyHmac) : Prop where
  told : ∀ id value status, ring id = some (value, status) →
    ∃ row, t.get id = some row ∧ row.keyHmac = sha256Hex value ∧ row.status = status
  known : ∀ id row, t.get id = some row →
    (∃ value, ring id = some (value, row.status) ∧ row.keyHmac = sha256Hex value) ∨ imported row.keyHmac

section

variable {sha256Hex : String → String} {imported : String → Prop} {ring : KeyRing}
  {t t' : Table ApiKeyRow fun row => some row.keyHmac} {id : ℤ} {row : ApiKeyRow}

/-- A new key that is given out. -/
theorem KeysMatch.give {value : String} (h : KeysMatch sha256Hex imported ring t)
    (hinsert : t.insertAt id row = some t') (hhmac : row.keyHmac = sha256Hex value) :
    KeysMatch sha256Hex imported (Function.update ring id (some (value, row.status))) t' := by
  have hget : ∀ other, t'.get other = if other = id then some row else t.get other := fun other =>
    (Table.get_insertAt hinsert other).2.2.2
  refine ⟨fun other value' status hring => ?_, fun other row' hrow' => ?_⟩
  · by_cases heq : other = id
    · subst heq
      rw [Function.update_self, Option.some.injEq, Prod.mk.injEq] at hring
      obtain ⟨rfl, rfl⟩ := hring
      exact ⟨row, by rw [hget, if_pos rfl], hhmac, rfl⟩
    · rw [Function.update_of_ne heq] at hring
      obtain ⟨row', hrow', hspec⟩ := h.told other value' status hring
      exact ⟨row', by rw [hget, if_neg heq, hrow'], hspec⟩
  · rw [hget] at hrow'
    split at hrow'
    · rename_i heq
      subst heq
      cases hrow'
      exact Or.inl ⟨value, Function.update_self .., hhmac⟩
    · rename_i heq
      rw [Function.update_of_ne heq]
      exact h.known other row' hrow'

/-- A new key of an export. -/
theorem KeysMatch.importKey (h : KeysMatch sha256Hex imported ring t) (hinsert : t.insertAt id row = some t')
    (hhmac : imported row.keyHmac) : KeysMatch sha256Hex imported ring t' := by
  refine ⟨fun other value status hring => ?_, fun other row' hrow' => ?_⟩
  · obtain ⟨row', hrow', hspec⟩ := h.told other value status hring
    obtain ⟨row'', hrow'', rfl⟩ := (Table.evolves_insertAt (R := Eq) (fun _ => rfl) hinsert).2 other row' hrow'
    exact ⟨row', hrow'', hspec⟩
  · rw [(Table.get_insertAt hinsert other).2.2.2] at hrow'
    split at hrow'
    · cases hrow'
      exact Or.inr hhmac
    · exact h.known other row' hrow'

/-- A key whose status is changed. -/
theorem KeysMatch.update {f : ApiKeyRow → ApiKeyRow} {status : String} (h : KeysMatch sha256Hex imported ring t)
    (hupdate : t.update id f = some t') (hf : ∀ row, (f row).keyHmac = row.keyHmac
      ∧ (f row).status = if status = "" then row.status else status) :
    KeysMatch sha256Hex imported (ring.setStatus id status) t' := by
  have hget : ∀ other, t'.get other = if other = id then (t.get id).map f else t.get other := fun other =>
    (Table.get_update hupdate other).2
  have hring : ∀ other, ring.setStatus id status other
      = if other = id then (ring id).map fun e => (e.1, if status = "" then e.2 else status) else ring other := by
    intro other
    rw [KeyRing.setStatus]
    split
    · split
      · rename_i heq
        rw [heq]
        exact Option.map_id'.symm
      · rfl
    · split
      · rename_i heq
        rw [heq, Function.update_self]
      · rename_i hne
        exact Function.update_of_ne hne ..
  refine ⟨fun other value status' htold => ?_, fun other row' hrow' => ?_⟩
  · rw [hring] at htold
    split at htold
    · rename_i heq
      obtain ⟨⟨value', old⟩, hold, htold⟩ := Option.map_eq_some_iff.mp htold
      rw [Prod.mk.injEq] at htold
      obtain ⟨rfl, rfl⟩ := htold
      obtain ⟨row, hrow, hhmac, rfl⟩ := h.told id value' old hold
      exact ⟨f row, by rw [hget, if_pos heq, hrow, Option.map_some], (hf row).1.trans hhmac, (hf row).2⟩
    · rename_i hne
      obtain ⟨row, hrow, hspec⟩ := h.told other value status' htold
      exact ⟨row, by rw [hget, if_neg hne, hrow], hspec⟩
  · rw [hget] at hrow'
    split at hrow'
    · rename_i heq
      obtain ⟨row, hrow, rfl⟩ := Option.map_eq_some_iff.mp hrow'
      rw [(hf row).1, (hf row).2]
      refine (h.known id row hrow).imp_left ?_
      rintro ⟨value, hvalue, hhmac⟩
      exact ⟨value, by rw [hring, if_pos heq, hvalue, Option.map_some], hhmac⟩
    · rename_i hne
      refine (h.known other row' hrow').imp_left ?_
      rintro ⟨value, hvalue, hhmac⟩
      exact ⟨value, by rw [hring, if_neg hne, hvalue], hhmac⟩

theorem KeysMatch.delete (h : KeysMatch sha256Hex imported ring t) :
    KeysMatch sha256Hex imported (Function.update ring id none) (t.delete id) := by
  refine ⟨fun other value status hring => ?_, fun other row hrow => ?_⟩
  · by_cases heq : other = id
    · rw [heq, Function.update_self] at hring
      cases hring
    · rw [Function.update_of_ne heq] at hring
      rw [Table.get_delete, if_neg heq]
      exact h.told other value status hring
  · rw [Table.get_delete] at hrow
    split at hrow
    · cases hrow
    · rename_i heq
      rw [Function.update_of_ne heq]
      exact h.known other row hrow

end

/-! ## Requests -/

section

variable {libs : AdminLibs} {imported : String → Prop} {ring : KeyRing} {s : ControlState}

/-- An answer to `create_api_key` gives out a key, or nothing has happened. -/
theorem createApiKey_cases (libs : AdminLibs) (s : ControlState) (generated : String) (body : Value) :
    ((createApiKey libs s generated body).1 = s ∧ ∀ data, (createApiKey libs s generated body).2 ≠ .success data)
      ∨ ∃ value row apiKeys data, s.store.apiKeys.insert row = some apiKeys ∧ row.keyHmac = libs.sha256Hex value
        ∧ row.status = "active" ∧ (createApiKey libs s generated body).1.store.apiKeys = apiKeys
        ∧ (createApiKey libs s generated body).2 = .success data
        ∧ (data.get "id").bind Value.asInt = some apiKeys.last ∧ data.getStr "key" = some value := by
  rw [createApiKey]
  split
  · rename_i id store hinsert
    obtain ⟨apiKeys, hinserted, rfl, rfl⟩ := StateTables.insertApiKey_eq_ok hinsert
    exact Or.inr ⟨_, _, apiKeys, _, hinserted, rfl, rfl, rfl, rfl, rfl, rfl⟩
  · exact Or.inl ⟨rfl, fun _ h => by cases h⟩
  · exact Or.inl ⟨rfl, fun _ h => by cases h⟩

theorem KeysMatch.createKey {generated : String} {body : Value}
    (h : KeysMatch libs.sha256Hex imported ring s.store.apiKeys) :
    KeysMatch libs.sha256Hex imported (ring.hear libs s (.createKey generated body))
      (createApiKey libs s generated body).1.store.apiKeys := by
  rw [KeyRing.hear]
  rcases createApiKey_cases libs s generated body with ⟨heq, hfailed⟩ |
    ⟨value, row, apiKeys, data, hinsert, hhmac, hactive, hkeys, hresponse, hid, hvalue⟩
  · rw [heq]
    split
    · rename_i data hdata
      exact absurd hdata (hfailed data)
    · exact h
  · rw [hresponse, hkeys]
    dsimp only
    rw [KeyRing.give, hid, hvalue, (Table.get_insert hinsert 0).1, ← hactive]
    exact h.give hinsert hhmac

/-- The answer to an update is a success, or there was no status to set. -/
theorem succeed_or_statusless (body : Value) (id : ℤ) :
    (∃ data, succeed body [("id", intValue id)] = .success data) ∨ jsonString body "status" = "" := by
  cases body with
  | object members => exact Or.inl ⟨_, rfl⟩
  | null => exact Or.inl ⟨_, rfl⟩
  | _ => exact Or.inr rfl

theorem KeysMatch.updateKey {id : ℤ} {body : Value} (h : KeysMatch libs.sha256Hex imported ring s.store.apiKeys) :
    KeysMatch libs.sha256Hex imported (ring.hear libs s (.updateKey id body))
      (updateApiKey s id body).1.store.apiKeys := by
  rw [KeyRing.hear]
  generalize hanswer : updateApiKey s id body = answer
  rw [updateApiKey] at hanswer
  dsimp only at hanswer
  split at hanswer
  · rename_i row apiKeys hget hupdate
    subst hanswer
    have hmatch : KeysMatch libs.sha256Hex imported
        (ring.setStatus id (jsonString (sanitizeStatePayload body) "status")) apiKeys :=
      h.update hupdate fun row => ⟨rfl, rfl⟩
    dsimp only
    rcases succeed_or_statusless (sanitizeStatePayload body) id with ⟨data, hdata⟩ | hstatus
    · rw [hdata]
      exact hmatch
    · rw [KeyRing.setStatus, if_pos hstatus] at hmatch ⊢
      split <;> exact hmatch
  · subst hanswer
    exact h

theorem KeysMatch.deleteKey {id : ℤ} (h : KeysMatch libs.sha256Hex imported ring s.store.apiKeys) :
    KeysMatch libs.sha256Hex imported (ring.hear libs s (.deleteKey id)) (deleteApiKey s id).1.store.apiKeys := by
  rw [KeyRing.hear]
  generalize hanswer : deleteApiKey s id = answer
  rw [deleteApiKey] at hanswer
  split at hanswer <;> subst hanswer
  · exact h
  · exact h.delete

/-- The other requests leave the keys alone. -/
theorem apiKeys_performAdmin {request : AdminRequest} (hrequest : keyRequest request = false) :
    (performAdmin libs s request).store.apiKeys = s.store.apiKeys := by
  have hwithin : request.Within libs ⟨fun _ => True, fun _ => True, false, False⟩ s :=
    ⟨fun _ _ => trivial, fun _ _ => trivial, fun h => absurd h Bool.false_ne_true,
      fun h => absurd (hrequest.symm.trans h) Bool.false_ne_true⟩
  refine changes_keep (I := fun u => u.apiKeys = s.store.apiKeys) (fun hu hchange => ?_)
    (changes_performAdmin request hwithin) rfl
  refine Eq.trans ?_ hu
  cases hchange with
  | apiKeys hkeys => exact hkeys.elim
  | link =>
    obtain ⟨links, heq, -⟩ := StateTables.syncAccountGroups_eq _ _ _
    rw [heq]
  | newAccount | edit | delete | groups | routes => rfl

/-- A request keeps that the table has what was said. -/
theorem KeysMatch.admin (request : AdminRequest) (h : KeysMatch libs.sha256Hex imported ring s.store.apiKeys) :
    KeysMatch libs.sha256Hex imported (ring.hear libs s request) (performAdmin libs s request).store.apiKeys := by
  cases hrequest : keyRequest request with
  | true =>
    cases request with
    | createKey => exact h.createKey
    | updateKey => exact h.updateKey
    | deleteKey => exact h.deleteKey
    | _ => cases hrequest
  | false =>
    rw [apiKeys_performAdmin hrequest]
    cases request with
    | createKey | updateKey | deleteKey => cases hrequest
    | _ => exact h

end

/-! ## Runs -/

section

variable {Bytes : Type} {libs : ImportLibs Bytes} {adminLibs : AdminLibs} {imported : String → Prop} {ring ring' : KeyRing}
  {s t : ImportState Bytes}

/-- The keys of an export are objects of the import. -/
theorem mem_apiKeys_of_object {e : LegacyExport} {key : LegacyApiKey} (h : LegacyObject.apiKey key ∈ e.objects) :
    key ∈ e.apiKeys := by
  simpa [LegacyExport.objects] using h

/-- An import adds keys of its export only. -/
theorem KeysMatch.legacyImport {faults : ImportFaults} {now : String} {e : LegacyExport}
    {outcome : Except ImportError MigrationSummary} (himported : ∀ key ∈ e.apiKeys,
      imported (libs.hmacHex ("key:" ++ key.value))) (h : importLegacyExport libs faults now e s = some (t, outcome))
    (hs : KeysMatch adminLibs.sha256Hex imported ring s.store.apiKeys) :
    KeysMatch adminLibs.sha256Hex imported ring t.store.apiKeys := by
  cases outcome with
  | error error =>
    rw [(importLegacyExport_error h).1]
    exact hs
  | ok summary =>
    obtain ⟨-, -, prepared, flags, -, -, -, -, -, htaken, -⟩ := importLegacyExport_ok h
    refine Importer.takeAll_invariant (I := fun u => KeysMatch adminLibs.sha256Hex imported ring u.apiKeys)
      (fun object hobject u isNew v hu hact => ?_) htaken hs
    obtain ⟨mid, newId, -, -, hkeys, rfl⟩ := importObject_eq_ok hact
    have hmid : KeysMatch adminLibs.sha256Hex imported ring mid.apiKeys := by
      rcases hkeys with hsame | ⟨key, rfl, row, hinsert, hhmac⟩
      · exact hsame ▸ hu
      · exact hu.importKey hinsert (hhmac ▸ himported key (mem_apiKeys_of_object hobject))
    exact hmid

theorem KeysMatch.event {event : ControlEvent Bytes} (himported : ∀ key ∈ event.importedKeys,
      imported (libs.hmacHex ("key:" ++ key.value))) (h : ringStep libs adminLibs (s, ring) event = some (t, ring'))
    (hs : KeysMatch adminLibs.sha256Hex imported ring s.store.apiKeys) :
    KeysMatch adminLibs.sha256Hex imported ring' t.store.apiKeys := by
  rw [ringStep, Option.map_eq_some_iff] at h
  obtain ⟨u, hu, heq⟩ := h
  rw [Prod.mk.injEq] at heq
  obtain ⟨rfl, rfl⟩ := heq
  cases event with
  | admin request files =>
    rw [controlStep, Option.some.injEq] at hu
    subst hu
    exact KeysMatch.admin (s := ⟨s.store, s.secrets⟩) request hs
  | legacyImport faults now e =>
    rw [controlStep, Option.map_eq_some_iff] at hu
    obtain ⟨⟨u', outcome⟩, himport, rfl⟩ := hu
    exact hs.legacyImport himported himport

theorem KeysMatch.run {events : List (ControlEvent Bytes)} (himported : ∀ event ∈ events,
      ∀ key ∈ event.importedKeys, imported (libs.hmacHex ("key:" ++ key.value)))
    (h : exec (ringStep libs adminLibs) anyStep (s, ring) events = some (t, ring'))
    (hs : KeysMatch adminLibs.sha256Hex imported ring s.store.apiKeys) :
    KeysMatch adminLibs.sha256Hex imported ring' t.store.apiKeys := by
  induction events generalizing s ring with
  | nil =>
    rw [exec, Option.some.injEq, Prod.mk.injEq] at h
    exact h.1 ▸ h.2 ▸ hs
  | cons event rest ih =>
    obtain ⟨-, ⟨u, ring₁⟩, hstep, hrest⟩ := exec_cons h
    rw [List.forall_mem_cons] at himported
    exact ih himported.2 hrest (hs.event himported.1 hstep)

/-- After any run from a store without keys, a key that is presented is valid exactly when an answer gave it out and, by
the answers, it is active and was not taken back.  Its digest must be that of no other key that is given out, and of no
key of an export. -/
theorem dataKeyValid_iff {events : List (ControlEvent Bytes)} {presented : String}
    (hempty : ∀ id, s.store.apiKeys.get id = none)
    (h : exec (ringStep libs adminLibs) anyStep (s, fun _ => none) events = some (t, ring))
    (hring : ∀ id value status, ring id = some (value, status) →
      adminLibs.sha256Hex value = adminLibs.sha256Hex presented → value = presented)
    (himported : ∀ event ∈ events, ∀ key ∈ event.importedKeys,
      libs.hmacHex ("key:" ++ key.value) ≠ adminLibs.sha256Hex presented) :
    dataKeyValid adminLibs ⟨t.store, t.secrets⟩ presented = true ↔ ∃ id, ring id = some (presented, "active") := by
  have hmatch : KeysMatch adminLibs.sha256Hex (fun hmac => hmac ≠ adminLibs.sha256Hex presented) ring
      t.store.apiKeys := by
    refine KeysMatch.run himported h ⟨fun _ _ _ htold => (by cases htold), fun id row hrow => ?_⟩
    rw [hempty] at hrow
    cases hrow
  have hvalid : dataKeyValid adminLibs ⟨t.store, t.secrets⟩ presented = true
      ↔ ∃ id row, t.store.apiKeys.get id = some row ∧ row.keyHmac = adminLibs.sha256Hex presented
        ∧ row.status = "active" := by
    rw [dataKeyValid, List.any_eq_true]
    simp only [Bool.and_eq_true, decide_eq_true_eq, Prod.exists, Table.get_eq_some_iff]
  rw [hvalid]
  constructor
  · rintro ⟨id, row, hrow, hhmac, hactive⟩
    rcases hmatch.known id row hrow with ⟨value, hvalue, hsame⟩ | hother
    · rw [← hring id value row.status hvalue (hsame.symm.trans hhmac), ← hactive]
      exact ⟨id, hvalue⟩
    · exact absurd hhmac hother
  · rintro ⟨id, hid⟩
    obtain ⟨row, hrow, hhmac, hactive⟩ := hmatch.told id presented "active" hid
    exact ⟨id, row, hrow, hhmac, hactive⟩

end

/-! ### A run -/

/-- The digest of the key. -/
def keyLibs : AdminLibs where
  stableIdentityHmac := fun _ _ => ""
  sha256Hex := fun text => if text = "sk-1" then "0f2c10bf3d128c719c6bfa4ecbae94b7fceebaea6e4438fef38a90e5acc326f3" else ""

/-- The body of a key. -/
def keyBody : Value := .object [("custom_key", .string "sk-1"), ("name", .string "main")]

def keyState : ImportState Value :=
  ⟨(performAdmin keyLibs (.start sampleSecrets) (.createKey "" keyBody)).store, fun _ => none, sampleSecrets⟩

def toldRing : KeyRing := Function.update (fun _ : ℤ => none) 1 (some ("sk-1", "active"))

/-- The key is valid. -/
theorem dataKeyValid_iff_sample :
    dataKeyValid keyLibs ⟨keyState.store, keyState.secrets⟩ "sk-1" = true
      ↔ ∃ id, toldRing id = some ("sk-1", "active") := by
  have h : exec (ringStep sampleImportLibs keyLibs) anyStep (sampleStart, fun _ => none)
      [.admin (.createKey "" keyBody) fun _ => none]
      = some (keyState, toldRing) := rfl
  refine dataKeyValid_iff (fun _ => rfl) h (fun id value status hring _ => ?_)
    (List.forall_mem_singleton.mpr fun _ hkey => absurd hkey List.not_mem_nil)
  rw [toldRing] at hring
  by_cases hid : id = 1
  · rw [hid, Function.update_self, Option.some.injEq, Prod.mk.injEq] at hring
    exact hring.1.symm
  · rw [Function.update_of_ne hid] at hring
    cases hring

end CodexRouter
