/-
# A legacy import that fails

The secrets and the auth files are put back from their undo lists, and the tables are rolled back.  `putBack` and
`cleanupCreated` undo one write after the other, the last one first, and the loops keep that undoing what has been done
gives what was there (`writeApiSecrets_spec`, `writePending_spec`).

There is one way out without undoing: when a secret cannot be read, those before it stay overwritten
(`importLegacyExport_error`).
-/
import CodexRouter.LegacyImport

namespace CodexRouter

open Text

/-! ## Secrets -/

namespace AccountSecrets

variable (secrets : AccountSecrets) (name secret other : String)

theorem readText_writeText :
    (secrets.writeText name secret).readText = Function.update secrets.readText name (some (readableSecret secret)) := by
  funext other
  by_cases heq : other = name
  · subst heq
    simp only [readText, writeText, Function.update_self, Option.some_or]
  · simp only [readText, writeText, Function.update_of_ne heq]
    rfl

theorem readText_deleteText :
    (secrets.deleteText name).readText = Function.update secrets.readText name none := by
  funext other
  by_cases heq : other = name
  · subst heq
    simp only [readText, deleteText, Function.update_self, Option.none_or]
    split
    · exact Function.update_self ..
    · rfl
  · simp only [readText, deleteText, Function.update_of_ne heq]
    split
    · rw [Function.update_of_ne heq]
    · rfl

variable {secrets name secret}

theorem readable_of_readText (h : secrets.readText name = some secret) : readableSecret secret = secret := by
  rw [readText, Option.or_eq_some_iff] at h
  rcases h with h | ⟨-, h⟩
  · exact secrets.readable name secret (Or.inl h)
  · split at h
    · exact secrets.readable name secret (Or.inr h)
    · cases h

end AccountSecrets

/-- The values that an undo list puts back. -/
def putBack (reads : String → Option String) (previous : List (String × Option String)) : String → Option String :=
  previous.foldl (fun reads e => Function.update reads e.1 e.2) reads

/-- What was read can be put back as it was. -/
def Readable (previous : List (String × Option String)) : Prop :=
  ∀ e ∈ previous, ∀ secret, e.2 = some secret → readableSecret secret = secret

theorem readText_restoreApiSecrets {previous : List (String × Option String)} (h : Readable previous)
    (secrets : AccountSecrets) : (restoreApiSecrets secrets previous).readText = putBack secrets.readText previous := by
  induction previous generalizing secrets with
  | nil => rfl
  | cons e rest ih =>
    obtain ⟨name, old⟩ := e
    rw [Readable, List.forall_mem_cons] at h
    cases old with
    | none => rw [restoreApiSecrets, ih h.2, AccountSecrets.readText_deleteText, putBack, putBack, List.foldl_cons]
    | some old =>
      rw [restoreApiSecrets, ih h.2, AccountSecrets.readText_writeText, h.1 old rfl, putBack, putBack, List.foldl_cons]

/-- The secrets written in turn. -/
def writeAll (secrets : AccountSecrets) (entries : List (String × String)) : AccountSecrets :=
  entries.foldl (fun secrets e => secrets.writeText e.1 e.2) secrets

/-- The loop either writes all secrets, and its list undoes that; or it ends at a write, and has undone it; or at a read,
and has undone nothing. -/
theorem writeApiSecrets_spec (reads writes : ℕ → Bool) (secrets : AccountSecrets)
    (previous : List (String × Option String)) (entries : List (String × String)) (hreadable : Readable previous) :
    (∃ previous', writeApiSecrets reads writes secrets previous entries = (writeAll secrets entries, .ok previous')
        ∧ Readable previous'
        ∧ putBack (writeAll secrets entries).readText previous' = putBack secrets.readText previous)
      ∨ (∃ i restored, writes i = true
        ∧ writeApiSecrets reads writes secrets previous entries = (restored, .error .fault)
        ∧ restored.readText = putBack secrets.readText previous)
      ∨ ∃ i < entries.length, reads i = true
        ∧ writeApiSecrets reads writes secrets previous entries = (writeAll secrets (entries.take i), .error .fault) := by
  induction entries generalizing reads writes secrets previous with
  | nil => exact Or.inl ⟨previous, rfl, hreadable, rfl⟩
  | cons e rest ih =>
    obtain ⟨name, secret⟩ := e
    rw [writeApiSecrets]
    split
    · rename_i hread
      exact Or.inr (Or.inr ⟨0, by simp, hread, rfl⟩)
    · split
      · rename_i hwrite
        exact Or.inr (Or.inl ⟨0, _, hwrite, rfl, readText_restoreApiSecrets hreadable secrets⟩)
      · have hundo : putBack (secrets.writeText name secret).readText ((name, secrets.readText name) :: previous)
            = putBack secrets.readText previous := by
          rw [putBack, List.foldl_cons, AccountSecrets.readText_writeText, Function.update_idem, Function.update_eq_self,
            putBack]
        have hreadable' : Readable ((name, secrets.readText name) :: previous) :=
          List.forall_mem_cons.mpr ⟨fun _ h => AccountSecrets.readable_of_readText h, hreadable⟩
        rcases ih (fun n => reads (n + 1)) (fun n => writes (n + 1)) (secrets.writeText name secret) _ hreadable' with
          ⟨previous', heq, hprevious', hback⟩ | ⟨i, restored, hwrite, heq, hback⟩ | ⟨i, hi, hread, heq⟩
        · exact Or.inl ⟨previous', heq, hprevious', hback.trans hundo⟩
        · exact Or.inr (Or.inl ⟨i + 1, restored, hwrite, heq, hback.trans hundo⟩)
        · exact Or.inr (Or.inr ⟨i + 1, by simpa using hi, hread, heq⟩)

/-! ## Auth files -/

section

variable {Bytes : Type} {libs : ImportLibs Bytes} {files : String → Option Bytes} {created : List String}

theorem cleanupCreated_apply (files : String → Option Bytes) (created : List String) (name : String) :
    cleanupCreated files created name = if name ∈ created then none else files name := by
  induction created generalizing files with
  | nil => rfl
  | cons first rest ih =>
    rw [cleanupCreated, List.foldl_cons, ← cleanupCreated, ih]
    by_cases hfirst : name = first
    · rw [hfirst, Function.update_self, ite_self, if_pos List.mem_cons_self]
    · simp only [Function.update_of_ne hfirst, List.mem_cons, hfirst, false_or]

/-- A new file is undone with the others. -/
theorem cleanupCreated_create {name : String} {bytes : Bytes} (hnone : files name = none) :
    cleanupCreated (Function.update files name (some bytes)) (created ++ [name]) = cleanupCreated files created := by
  funext other
  rw [cleanupCreated_apply, cleanupCreated_apply]
  by_cases heq : other = name
  · rw [heq, if_pos (List.mem_append_right _ List.mem_cons_self), hnone, ite_self]
  · simp only [Function.update_of_ne heq, List.mem_append, List.mem_singleton, heq, or_false]

/-- The files behind the third loop: none is lost or changed, those of the items are there, and what is new is the
document of an item. -/
structure FilesWritten (libs : ImportLibs Bytes) (pending : List PendingOAuth) (files files' : String → Option Bytes) :
    Prop where
  kept : ∀ name bytes, files name = some bytes → files' name = some bytes
  made : ∀ item ∈ pending, (files' item.authFile).isSome
  new : ∀ name bytes, files' name = some bytes → files name = some bytes
    ∨ ∃ item ∈ pending, item.authFile = name ∧ bytes = libs.encode item.document

theorem FilesWritten.cons {item : PendingOAuth} {pending : List PendingOAuth} {mid files' : String → Option Bytes}
    (hkept : ∀ name bytes, files name = some bytes → mid name = some bytes) (hmade : (mid item.authFile).isSome)
    (hnew : ∀ name bytes, mid name = some bytes → files name = some bytes
      ∨ item.authFile = name ∧ bytes = libs.encode item.document)
    (h : FilesWritten libs pending mid files') : FilesWritten libs (item :: pending) files files' where
  kept := fun name bytes hname => h.kept name bytes (hkept name bytes hname)
  made := by
    refine List.forall_mem_cons.mpr ⟨?_, h.made⟩
    obtain ⟨bytes, hbytes⟩ := Option.isSome_iff_exists.mp hmade
    exact Option.isSome_iff_exists.mpr ⟨bytes, h.kept _ _ hbytes⟩
  new := by
    intro name bytes hname
    rcases h.new name bytes hname with hmid | ⟨other, hother, hdocument⟩
    · exact (hnew name bytes hmid).imp_right fun hitem => ⟨item, List.mem_cons_self, hitem⟩
    · exact Or.inr ⟨other, List.mem_cons_of_mem _ hother, hdocument⟩

variable (libs) in
/-- The loop undoes what it has done, or leaves that to its caller. -/
theorem writePending_spec (faults : ℕ → Bool) (files : String → Option Bytes) (created : List String)
    (prepared : ℤ → Option PreparedOAuth) (pending : List PendingOAuth) :
    (∃ prepared' created', (writePending libs faults files created prepared pending).2 = .ok (prepared', created')
        ∧ cleanupCreated (writePending libs faults files created prepared pending).1 created'
          = cleanupCreated files created
        ∧ FilesWritten libs pending files (writePending libs faults files created prepared pending).1)
      ∨ writePending libs faults files created prepared pending = (cleanupCreated files created, .error .fault) := by
  induction pending generalizing faults files created prepared with
  | nil => exact Or.inl ⟨prepared, created, rfl, rfl, ⟨fun _ _ h => h, fun _ h => absurd h List.not_mem_nil,
      fun _ _ h => Or.inl h⟩⟩
  | cons item rest ih =>
    rw [writePending]
    split
    · rename_i bytes hthere
      rcases ih (fun n => faults (n + 1)) files created _ with ⟨prepared', created', hok, hback, hwritten⟩ | herror
      · refine Or.inl ⟨prepared', created', hok, hback, hwritten.cons (fun _ _ h => h) ?_ fun _ _ h => Or.inl h⟩
        rw [hthere]
        rfl
      · exact Or.inr herror
    · rename_i hnone
      split
      · exact Or.inr rfl
      · rcases ih (fun n => faults (n + 1)) (Function.update files item.authFile (some (libs.encode item.document)))
            (created ++ [item.authFile]) _ with ⟨prepared', created', hok, hback, hwritten⟩ | herror
        · refine Or.inl ⟨prepared', created', hok, hback.trans (cleanupCreated_create hnone),
            hwritten.cons (fun name bytes h => ?_) ?_ fun name bytes h => ?_⟩
          · rw [Function.update_of_ne, h]
            rintro rfl
            rw [hnone] at h
            cases h
          · rw [Function.update_self]
            rfl
          · by_cases heq : name = item.authFile
            · subst heq
              rw [Function.update_self, Option.some.injEq] at h
              exact Or.inr ⟨rfl, h.symm⟩
            · rw [Function.update_of_ne heq] at h
              exact Or.inl h
        · rw [cleanupCreated_create hnone] at herror
          exact Or.inr herror

variable (libs) in
/-- `prepare_oauth_files` leaves no trace when it fails, and a list that undoes it when it does not. -/
theorem prepareOAuthFiles_spec (faults : ImportFaults) (files : String → Option Bytes) (accounts : List LegacyAccount) :
    (∃ prepared created pending, (prepareOAuthFiles libs faults files accounts).2 = .ok (prepared, created)
        ∧ pendingOAuth accounts = .ok pending ∧ checkExisting libs files faults.existing pending = .ok ()
        ∧ cleanupCreated (prepareOAuthFiles libs faults files accounts).1 created = files
        ∧ FilesWritten libs pending files (prepareOAuthFiles libs faults files accounts).1)
      ∨ ∃ error, prepareOAuthFiles libs faults files accounts = (files, .error error) := by
  have hnone : FilesWritten libs [] files files :=
    ⟨fun _ _ h => h, fun _ h => absurd h List.not_mem_nil, fun _ _ h => Or.inl h⟩
  rw [prepareOAuthFiles]
  split
  · exact Or.inr ⟨_, rfl⟩
  · rename_i hpending
    exact Or.inl ⟨_, [], [], rfl, hpending, rfl, rfl, hnone⟩
  · rename_i pending hpending hsome
    split
    · exact Or.inr ⟨_, rfl⟩
    · rename_i hcheck
      split
      · exact Or.inr ⟨_, rfl⟩
      · rcases writePending_spec libs faults.file files [] (fun _ => none) pending with
          ⟨prepared, created, hok, hback, hwritten⟩ | herror
        · exact Or.inl ⟨prepared, created, pending, hok, hsome, hcheck, hback, hwritten⟩
        · exact Or.inr ⟨_, herror⟩

/-! ## The import -/

/-- An import that fails leaves the tables and the auth directory as they were, and every secret reads as before, unless
a secret could not be read: then those before it stay overwritten. -/
theorem importLegacyExport_error {faults : ImportFaults} {now : String} {e : LegacyExport} {s t : ImportState Bytes}
    {error : ImportError} (h : importLegacyExport libs faults now e s = some (t, .error error)) :
    t.store = s.store ∧ t.files = s.files
      ∧ (t.secrets.readText = s.secrets.readText
        ∨ ∃ apiSecrets i, apiAccountSecrets e.accounts = .ok apiSecrets ∧ i < apiSecrets.length
          ∧ faults.secretRead i = true ∧ t.secrets = writeAll s.secrets (apiSecrets.take i)) := by
  rw [importLegacyExport] at h
  split at h
  · cases h
    exact ⟨rfl, rfl, Or.inl rfl⟩
  · rename_i apiSecrets happly
    dsimp only at h
    rcases prepareOAuthFiles_spec libs faults s.files e.accounts with
      ⟨prepared, created, pending, hok, -, -, hback, -⟩ | ⟨cause, heq⟩
    · rw [hok] at h
      dsimp only at h
      have hempty : Readable [] := fun _ h => absurd h List.not_mem_nil
      rcases writeApiSecrets_spec faults.secretRead faults.secretWrite s.secrets [] apiSecrets hempty with
        ⟨previous, heq, hprevious, hundo⟩ | ⟨-, restored, -, heq, hundo⟩ | ⟨i, hi, hread, heq⟩ <;> rw [heq] at h <;>
        dsimp only at h
      · have hrestored := (readText_restoreApiSecrets hprevious (writeAll s.secrets apiSecrets)).trans hundo
        split at h
        · cases h
          exact ⟨rfl, hback, Or.inl hrestored⟩
        · split at h
          · cases h
          · cases h
            exact ⟨rfl, hback, Or.inl hrestored⟩
          · cases h
      · cases h
        exact ⟨rfl, hback, Or.inl hundo⟩
      · cases h
        exact ⟨rfl, hback, Or.inr ⟨apiSecrets, i, happly, hi, hread, rfl⟩⟩
    · rw [heq] at h
      cases h
      exact ⟨rfl, rfl, Or.inl rfl⟩

end

/-- Two API accounts. -/
def sampleKeys : LegacyExport where
  accounts := [
    { id := 1, platform := "openai", accountType := "apikey", authFile := none, authIndex := none,
      credentials := .object [("api_key", .string "first")] },
    { id := 2, platform := "openai", accountType := "apikey", authFile := none, authIndex := none,
      credentials := .object [("api_key", .string "second")] }]

/-- Nothing is digested before the secrets are written. -/
def undigested : ImportLibs Value := ⟨fun _ => "", fun _ => "", id, id, some⟩

/-- The second secret cannot be read, and the first one stays overwritten. -/
theorem importLegacyExport_error_sample :
    (writeAll sampleSecrets [("AccountKey-1", "first")]).readText = sampleSecrets.readText
      ∨ ∃ apiSecrets i, apiAccountSecrets sampleKeys.accounts = .ok apiSecrets ∧ i < apiSecrets.length
        ∧ decide (i = 1) = true
        ∧ writeAll sampleSecrets [("AccountKey-1", "first")] = writeAll sampleSecrets (apiSecrets.take i) :=
  have h : importLegacyExport undigested { secretRead := fun n => n = 1 } "" sampleKeys
      ⟨.empty, fun _ => none, sampleSecrets⟩
      = some (⟨.empty, fun _ => none, writeAll sampleSecrets [("AccountKey-1", "first")]⟩, .error .fault) := rfl
  (importLegacyExport_error h).2.2

end CodexRouter
