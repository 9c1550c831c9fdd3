/-
# Downloads of updates

`receive_verified_reader` writes what a server sends to a temporary file, and moves the file to its place
when all of it has the declared size and digest.  `download_and_stage_update` does so with one mirror after
the other, and unpacks the package of the first that serves it.  Whatever the mirrors send and wherever a
download stops, the package that is found in its place was there before or has the declared digest, and
only the second kind is unpacked (`staged_from_verified`).
-/
import CodexRouter.UpdateInstall

namespace CodexRouter

open Text

/-- The package and the file it is downloaded to. -/
structure PackageFiles where
  destination : Option (List UInt8)
  temporary : Option (List UInt8)
  deriving DecidableEq, Repr

/-- What is declared of a package: the part of `UpdateInfo` that a download needs. -/
structure PackageInfo where
  assetSize : ℕ
  assetSha256 : String
  deriving DecidableEq, Repr

/-- `DownloadProgress`. -/
structure DownloadProgress where
  downloadedBytes : ℕ
  totalBytes : ℕ
  deriving DecidableEq, Repr

/-- The accesses to the file system that can fail; the reads are numbered. -/
inductive DownloadStep where
  | clearTemporary
  | create
  | write (index : ℕ)
  | flush
  | removeTemporary
  | removeDestination
  | rename
  | discard
  deriving DecidableEq, Repr

/-- What `read` gives, time after time: bytes, or an error; no bytes are the end. -/
abbrev ByteStream := List (Option (List UInt8))

/-- All bytes up to the end, if no read fails. -/
def ByteStream.content : ByteStream → Option (List UInt8)
  | [] => some []
  | none :: _ => none
  | some [] :: _ => some []
  | some chunk :: rest => (ByteStream.content rest).map (chunk ++ ·)

section

variable (sha256 : List UInt8 → String) (fails : DownloadStep → Bool) (info : PackageInfo)

/-- The loop of `receive_verified_reader`, with what is written so far and what is reported. -/
def receiveChunks : ℕ → ByteStream → List UInt8 → List DownloadProgress →
    Except String Unit × List UInt8 × List DownloadProgress
  | _, [], bytes, reports => (.ok (), bytes, reports)
  | _, none :: _, bytes, reports => (.error "the update download stream ended unexpectedly", bytes, reports)
  | index, some chunk :: rest, bytes, reports =>
    if chunk = [] then (.ok (), bytes, reports)
    else if fails (.write index) then (.error ioError, bytes, reports)
    else if info.assetSize < (bytes ++ chunk).length then
      (.error "the downloaded update is larger than its declared size", bytes ++ chunk, reports)
    else
      receiveChunks (index + 1) rest (bytes ++ chunk) (reports ++ [⟨(bytes ++ chunk).length, info.assetSize⟩])

/-- The download to the temporary file. -/
def receiveTemporary (stream : ByteStream) : Except String Unit × Option (List UInt8) × List DownloadProgress :=
  if fails .create then (.error "could not create the update download", none, [])
  else
    match receiveChunks fails info 0 stream [] [⟨0, info.assetSize⟩] with
    | (.error e, bytes, reports) => (.error e, some bytes, reports)
    | (.ok (), bytes, reports) =>
      if fails .flush then (.error ioError, some bytes, reports)
      else if bytes.length ≠ info.assetSize then
        (.error ("downloaded update size mismatch (expected " ++ toString info.assetSize ++ ", received "
          ++ toString bytes.length ++ ")"), some bytes, reports)
      else if sha256 bytes ≠ toAsciiLowercase info.assetSha256 then
        (.error "downloaded update SHA-256 mismatch", some bytes, reports)
      else (.ok (), some bytes, reports)

/-- `receive_verified_reader`. -/
def receiveVerifiedReader (stream : ByteStream) (files : PackageFiles) :
    Except String Unit × PackageFiles × List DownloadProgress :=
  if files.temporary.isSome && fails .clearTemporary then
    (.error "could not clear an incomplete update download", files, [])
  else
    match receiveTemporary sha256 fails info stream with
    | (.error e, temporary, reports) =>
      (.error e, ⟨files.destination, if fails .removeTemporary then temporary else none⟩, reports)
    | (.ok (), temporary, reports) =>
      if files.destination.isSome && fails .removeDestination then
        (.error "could not replace the previous update package", ⟨files.destination, temporary⟩, reports)
      else if fails .rename then
        (.error "could not finalize the verified update package", ⟨none, temporary⟩, reports)
      else (.ok (), ⟨temporary, none⟩, reports)

/-- What a mirror answers: a success has the length it declares and its bytes. -/
inductive DownloadAnswer where
  | failed
  | rejected (status : ℕ)
  | success (contentLength : Option ℕ) (stream : ByteStream)

/-- `receive_verified_payload`. -/
def receiveVerifiedPayload (contentLength : Option ℕ) (stream : ByteStream) (files : PackageFiles) :
    Except String Unit × PackageFiles × List DownloadProgress :=
  if contentLength.any (· ≠ info.assetSize) then
    (.error "the server reported an unexpected update size", files, [])
  else receiveVerifiedReader sha256 fails info stream files

end

section

variable {C : Type} (sha256 : List UInt8 → String) (fails : ℕ → DownloadStep → Bool) (info : PackageInfo)

/-- The loop over the mirrors, with the last error. -/
def downloadFrom : ℕ → List DownloadAnswer → Option String → PackageFiles → Except String Unit × PackageFiles
  | _, [], lastError, files => (.error (lastError.getD "update download failed"), files)
  | index, .failed :: rest, _, files =>
    downloadFrom (index + 1) rest (some "class=update_download_failure | update download failed") files
  | index, .rejected status :: rest, _, files =>
    downloadFrom (index + 1) rest
      (some ("class=update_download_failure | update asset request was rejected with status " ++ toString status)) files
  | index, .success contentLength stream :: rest, _, files =>
    match receiveVerifiedPayload sha256 (fails index) info contentLength stream files with
    | (.ok (), files, _) => (.ok (), files)
    | (.error e, files, _) =>
      downloadFrom (index + 1) rest (some e)
        { files with destination := if fails index .discard then files.destination else none }

/-- What is read off the bytes of a package. -/
structure PackageLibs (C : Type) where
  release : ReleaseLibs C
  /-- `ZipArchive::new`. -/
  unzip : List UInt8 → Except String (List (PackageEntry C))
  /-- SHA-256 in hexadecimal. -/
  sha256 : List UInt8 → String

/-- `download_and_stage_update` behind the check of the metadata, with the files of the download and the parent
directory; incomplete downloads of before are cleared, as far as they can be. -/
def downloadAndStageUpdate (libs : PackageLibs C) (cleanup unreadable : Bool)
    (extractFails : ExtractStep → Bool) (stuck : List (List String)) (container : String) (answers : List DownloadAnswer) (files : PackageFiles)
    (parent : DirTree C) : Except String (List String) × PackageFiles × StagingWorld C :=
  let files := { files with temporary := if cleanup then none else files.temporary }
  match downloadFrom libs.sha256 fails info 0 answers none files with
  | (.error e, files) => (.error e, files, ⟨parent, []⟩)
  | (.ok (), files) =>
    let archive :=
      match files.destination with
      | none => .error "could not open the update ZIP"
      | some bytes => if unreadable then .error "could not open the update ZIP" else libs.unzip bytes
    let ended := extractAndVerifyArchive libs.release extractFails stuck container archive parent
    (ended.1, files, ended.2)

end

/-! ## One download -/

section

variable {sha256 : List UInt8 → String} {fails : DownloadStep → Bool} {info : PackageInfo} {stream : ByteStream}
  {files files' : PackageFiles} {bytes bytes' : List UInt8} {reports reports' : List DownloadProgress}
  {result : Except String Unit}

/-- The bytes have the declared size and digest. -/
structure VerifiedPackage (sha256 : List UInt8 → String) (info : PackageInfo) (bytes : List UInt8) : Prop where
  size : bytes.length = info.assetSize
  digest : sha256 bytes = toAsciiLowercase info.assetSha256

theorem receiveChunks_ok {index : ℕ}
    (h : receiveChunks fails info index stream bytes reports = (.ok (), bytes', reports')) :
    ∃ content, stream.content = some content ∧ bytes' = bytes ++ content := by
  induction stream generalizing index bytes reports with
  | nil =>
    obtain ⟨-, h⟩ := Prod.mk.inj h
    exact ⟨[], rfl, by rw [List.append_nil, (Prod.mk.inj h).1]⟩
  | cons read rest ih =>
    cases read with
    | none => cases h
    | some chunk =>
      rw [receiveChunks] at h
      split at h
      · rename_i hempty
        obtain ⟨-, h⟩ := Prod.mk.inj h
        subst hempty
        exact ⟨[], rfl, by rw [List.append_nil, (Prod.mk.inj h).1]⟩
      rename_i hchunk
      split at h
      · cases h
      split at h
      · cases h
      obtain ⟨content, hcontent, rfl⟩ := ih h
      refine ⟨chunk ++ content, ?_, List.append_assoc _ _ _⟩
      rw [ByteStream.content, hcontent]
      · rfl
      · rintro rfl
        exact hchunk rfl

/-- The reports of a download: they grow, and do not pass the declared size. -/
structure Progresses (info : PackageInfo) (reports : List DownloadProgress) : Prop where
  grow : reports.Pairwise fun before after => before.downloadedBytes < after.downloadedBytes
  bounded : ∀ report ∈ reports, report.downloadedBytes ≤ info.assetSize ∧ report.totalBytes = info.assetSize

theorem progresses_receiveChunks {index : ℕ} (hreports : Progresses info reports)
    (hlast : ∀ report ∈ reports, report.downloadedBytes ≤ bytes.length) :
    Progresses info (receiveChunks fails info index stream bytes reports).2.2 := by
  induction stream generalizing index bytes reports with
  | nil => exact hreports
  | cons read rest ih =>
    cases read with
    | none => exact hreports
    | some chunk =>
      rw [receiveChunks]
      split
      · exact hreports
      rename_i hchunk
      split
      · exact hreports
      split
      · exact hreports
      rename_i hsize
      have hpos := List.length_pos_iff.mpr hchunk
      have hgrown : bytes.length < (bytes ++ chunk).length := by
        rw [List.length_append]
        omega
      refine ih ⟨?_, ?_⟩ ?_
      · refine List.pairwise_append.mpr ⟨hreports.grow, List.pairwise_singleton _ _, ?_⟩
        intro report hreport last hlastMem
        rw [List.mem_singleton.mp hlastMem]
        exact lt_of_le_of_lt (hlast report hreport) hgrown
      · intro report hreport
        rcases List.mem_append.mp hreport with hreport | hreport
        · exact hreports.bounded report hreport
        · rw [List.mem_singleton.mp hreport]
          exact ⟨not_lt.mp hsize, rfl⟩
      · intro report hreport
        rcases List.mem_append.mp hreport with hreport | hreport
        · exact le_trans (hlast report hreport) hgrown.le
        · rw [List.mem_singleton.mp hreport]

/-- **Progress never goes back**, and never past the declared size. -/
theorem receiveVerifiedReader_progresses (stream : ByteStream) (files : PackageFiles) :
    Progresses info (receiveVerifiedReader sha256 fails info stream files).2.2 := by
  have hnone : Progresses info [] := ⟨List.Pairwise.nil, by simp⟩
  have hfirst : Progresses info [⟨0, info.assetSize⟩] := ⟨List.pairwise_singleton _ _, by simp⟩
  have htemporary : Progresses info (receiveTemporary sha256 fails info stream).2.2 := by
    have hloop : Progresses info (receiveChunks fails info 0 stream [] [⟨0, info.assetSize⟩]).2.2 :=
      progresses_receiveChunks hfirst (by simp)
    rw [receiveTemporary]
    split
    · exact hnone
    cases hchunks : receiveChunks fails info 0 stream [] [⟨0, info.assetSize⟩] with
    | mk ended rest =>
      rw [hchunks] at hloop
      cases ended with
      | error e => exact hloop
      | ok u =>
        dsimp only
        split
        · exact hloop
        split
        · exact hloop
        split
        · exact hloop
        · exact hloop
  rw [receiveVerifiedReader]
  split
  · exact hnone
  cases hreceived : receiveTemporary sha256 fails info stream with
  | mk ended rest =>
    rw [hreceived] at htemporary
    cases ended with
    | error e => exact htemporary
    | ok u =>
      dsimp only
      split
      · exact htemporary
      split
      · exact htemporary
      · exact htemporary

theorem receiveTemporary_ok {temporary : Option (List UInt8)}
    (h : receiveTemporary sha256 fails info stream = (.ok (), temporary, reports)) :
    ∃ bytes, temporary = some bytes ∧ stream.content = some bytes ∧ VerifiedPackage sha256 info bytes := by
  rw [receiveTemporary] at h
  split at h
  · cases h
  split at h
  · cases h
  rename_i bytes reports' hloop
  split at h
  · cases h
  split at h
  · cases h
  rename_i hsize
  split at h
  · cases h
  rename_i hdigest
  obtain ⟨-, h⟩ := Prod.mk.inj h
  obtain ⟨content, hcontent, rfl⟩ := receiveChunks_ok hloop
  exact ⟨_, (Prod.mk.inj h).1.symm, hcontent, not_not.mp hsize, not_not.mp hdigest⟩

/-- How a download ends. -/
theorem receiveVerifiedReader_ends
    (h : receiveVerifiedReader sha256 fails info stream files = (result, files', reports)) :
    (∃ e, result = .error e) ∧ (files'.destination = files.destination ∨ files'.destination = none)
    ∨ result = .ok () ∧ ∃ bytes, files' = ⟨some bytes, none⟩ ∧ stream.content = some bytes
      ∧ VerifiedPackage sha256 info bytes := by
  rw [receiveVerifiedReader] at h
  split at h
  · obtain ⟨rfl, hfiles⟩ := Prod.mk.inj h
    rw [← (Prod.mk.inj hfiles).1]
    exact .inl ⟨⟨_, rfl⟩, .inl rfl⟩
  split at h
  · obtain ⟨rfl, hfiles⟩ := Prod.mk.inj h
    rw [← (Prod.mk.inj hfiles).1]
    exact .inl ⟨⟨_, rfl⟩, .inl rfl⟩
  rename_i temporary reports' hreceived
  split at h
  · obtain ⟨rfl, hfiles⟩ := Prod.mk.inj h
    rw [← (Prod.mk.inj hfiles).1]
    exact .inl ⟨⟨_, rfl⟩, .inl rfl⟩
  split at h
  · obtain ⟨rfl, hfiles⟩ := Prod.mk.inj h
    rw [← (Prod.mk.inj hfiles).1]
    exact .inl ⟨⟨_, rfl⟩, .inr rfl⟩
  obtain ⟨rfl, hfiles⟩ := Prod.mk.inj h
  obtain ⟨bytes, rfl, hcontent, hverified⟩ := receiveTemporary_ok hreceived
  exact .inr ⟨rfl, bytes, (Prod.mk.inj hfiles).1.symm, hcontent, hverified⟩

end

/-! ## All mirrors -/

section

variable {sha256 : List UInt8 → String} {fails : ℕ → DownloadStep → Bool} {info : PackageInfo}
  {answers : List DownloadAnswer} {files files' : PackageFiles} {result : Except String Unit}

/-- How the loop over the mirrors ends. -/
theorem downloadFrom_ends {index : ℕ} {lastError : Option String}
    (h : downloadFrom sha256 fails info index answers lastError files = (result, files')) :
    (∃ e, result = .error e) ∧ (files'.destination = files.destination ∨ files'.destination = none)
    ∨ result = .ok () ∧ ∃ bytes contentLength stream, files' = ⟨some bytes, none⟩
      ∧ .success contentLength stream ∈ answers ∧ stream.content = some bytes ∧ VerifiedPackage sha256 info bytes := by
  induction answers generalizing index lastError files with
  | nil =>
    obtain ⟨rfl, rfl⟩ := Prod.mk.inj h
    exact .inl ⟨⟨_, rfl⟩, .inl rfl⟩
  | cons answer rest ih =>
    have hrest : ∀ {index lastError before},
        downloadFrom sha256 fails info index rest lastError before = (result, files') →
        before.destination = files.destination ∨ before.destination = none →
        (∃ e, result = .error e) ∧ (files'.destination = files.destination ∨ files'.destination = none)
        ∨ result = .ok () ∧ ∃ bytes contentLength stream, files' = ⟨some bytes, none⟩
          ∧ .success contentLength stream ∈ answer :: rest ∧ stream.content = some bytes
          ∧ VerifiedPackage sha256 info bytes := by
      intro index lastError before hrun hbefore
      rcases ih hrun with ⟨herror, hdestination⟩ |
        ⟨hok, bytes, contentLength, stream, hfiles, hmem, hcontent, hverified⟩
      · refine .inl ⟨herror, ?_⟩
        rcases hdestination with hdestination | hdestination
        · rw [hdestination]
          exact hbefore
        · exact .inr hdestination
      · exact .inr ⟨hok, bytes, contentLength, stream, hfiles, List.mem_cons_of_mem _ hmem, hcontent, hverified⟩
    cases answer with
    | failed => exact hrest h (.inl rfl)
    | rejected status => exact hrest h (.inl rfl)
    | success contentLength stream =>
      rw [downloadFrom] at h
      cases hreceived : receiveVerifiedPayload sha256 (fails index) info contentLength stream files with
      | mk ended after =>
        obtain ⟨after, reports⟩ := after
        have hends : (∃ e, ended = .error e) ∧ (after.destination = files.destination ∨ after.destination = none)
            ∨ ended = .ok () ∧ ∃ bytes, after = ⟨some bytes, none⟩ ∧ stream.content = some bytes
              ∧ VerifiedPackage sha256 info bytes := by
          rw [receiveVerifiedPayload] at hreceived
          split at hreceived
          · obtain ⟨rfl, hafter⟩ := Prod.mk.inj hreceived
            rw [← (Prod.mk.inj hafter).1]
            exact .inl ⟨⟨_, rfl⟩, .inl rfl⟩
          · exact receiveVerifiedReader_ends hreceived
        rw [hreceived] at h
        rcases hends with ⟨⟨e, rfl⟩, hdestination⟩ | ⟨rfl, bytes, rfl, hcontent, hverified⟩
        · refine hrest h ?_
          show (if fails index .discard then after.destination else none) = _ ∨ _
          split
          · exact hdestination
          · exact .inr rfl
        · obtain ⟨rfl, rfl⟩ := Prod.mk.inj h
          exact .inr ⟨rfl, bytes, contentLength, stream, rfl, List.mem_cons_self, hcontent, hverified⟩

end

section

variable {C : Type}

/-- **Only a verified package is unpacked.**  Whatever the mirrors send and whatever fails, the package that is found in
its place was there before or has the declared size and digest; and a staged release has the files of a package of the
second kind, that one of the mirrors sent. -/
theorem staged_from_verified (libs : PackageLibs C) (fails : ℕ → DownloadStep → Bool) (info : PackageInfo)
    (cleanup unreadable : Bool) (extractFails : ExtractStep → Bool) (stuck : List (List String)) (container : String)
    (answers : List DownloadAnswer) (files files' : PackageFiles) (parent : DirTree C)
    (result : Except String (List String)) (world : StagingWorld C)
    (hrun : downloadAndStageUpdate fails info libs cleanup unreadable extractFails stuck container answers files parent
      = (result, files', world)) :
    (files'.destination = files.destination ∨ files'.destination = none
      ∨ ∃ bytes, files'.destination = some bytes ∧ VerifiedPackage libs.sha256 info bytes)
    ∧ ∀ staged, result = .ok staged → ∃ bytes contentLength stream entries root release,
      files'.destination = some bytes ∧ VerifiedPackage libs.sha256 info bytes
        ∧ .success contentLength stream ∈ answers ∧ stream.content = some bytes ∧ libs.unzip bytes = .ok entries
        ∧ world.tree.subtree? staged = some release ∧ StagedRelease libs.release entries root release := by
  rw [downloadAndStageUpdate] at hrun
  dsimp only at hrun
  cases hdownload : downloadFrom libs.sha256 fails info 0 answers none
      { files with temporary := if cleanup then none else files.temporary } with
  | mk ended after =>
    rw [hdownload] at hrun
    rcases downloadFrom_ends hdownload with ⟨⟨e, rfl⟩, hdestination⟩ |
      ⟨rfl, bytes, contentLength, stream, rfl, hmem, hcontent, hverified⟩
    · obtain ⟨rfl, hrest⟩ := Prod.mk.inj hrun
      obtain ⟨rfl, -⟩ := Prod.mk.inj hrest
      refine ⟨?_, fun staged hok => by cases hok⟩
      rcases hdestination with hsame | hnone
      · exact .inl hsame
      · exact .inr (.inl hnone)
    · obtain ⟨hresult, hrest⟩ := Prod.mk.inj hrun
      obtain ⟨rfl, rfl⟩ := Prod.mk.inj hrest
      refine ⟨.inr (.inr ⟨bytes, rfl, hverified⟩), ?_⟩
      intro staged hok
      rw [hok] at hresult
      obtain ⟨entries, root, release, harchive, -, hstaged, hrelease, -⟩ := extract_exact (Prod.ext hresult rfl)
      refine ⟨bytes, contentLength, stream, entries, root, release, rfl, hverified, hmem, hcontent, ?_, hstaged,
        hrelease⟩
      dsimp only at harchive
      split at harchive
      · cases harchive
      · exact harchive

end

/-! ## A run -/

namespace UpdateRun

/-- The bytes of the archive, with the entries stored as they are. -/
def package : List UInt8 :=
  [80, 75, 3, 4, 20, 0, 0, 0, 0, 0, 0, 0, 33, 92, 0, 0, 0, 0, 0, 0, 0, 0, 0, 0, 0, 0, 2, 0, 0, 0, 82, 47, 80, 75, 3,
    4, 20, 0, 0, 0, 0, 0, 0, 0, 33, 92, 216, 97, 202, 167, 8, 0, 0, 0, 8, 0, 0, 0, 18, 0, 0, 0, 82, 47, 67, 111, 100,
    101, 120, 45, 82, 111, 117, 116, 101, 114, 46, 101, 120, 101, 114, 111, 117, 116, 101, 114, 32, 50, 80, 75, 3, 4,
    20, 0, 0, 0, 0, 0, 0, 0, 33, 92, 79, 64, 0, 167, 119, 0, 0, 0, 119, 0, 0, 0, 23, 0, 0, 0, 82, 47, 114, 101, 108,
    101, 97, 115, 101, 45, 109, 97, 110, 105, 102, 101, 115, 116, 46, 106, 115, 111, 110, 91, 10, 32, 123, 34, 112,
    97, 116, 104, 34, 58, 34, 67, 111, 100, 101, 120, 45, 82, 111, 117, 116, 101, 114, 46, 101, 120, 101, 34, 44, 34,
    98, 121, 116, 101, 115, 34, 58, 56, 44, 34, 115, 104, 97, 50, 53, 54, 34, 58, 34, 51, 49, 52, 49, 99, 98, 50, 51,
    50, 55, 49, 99, 100, 101, 52, 57, 99, 102, 54, 57, 56, 51, 54, 57, 55, 54, 50, 55, 50, 50, 101, 99, 53, 98, 97,
    54, 48, 54, 55, 50, 54, 100, 97, 51, 49, 48, 49, 52, 49, 50, 101, 56, 57, 50, 49, 48, 51, 97, 55, 52, 55, 97, 48,
    54, 34, 125, 10, 93, 10, 80, 75, 1, 2, 20, 3, 20, 0, 0, 0, 0, 0, 0, 0, 33, 92, 0, 0, 0, 0, 0, 0, 0, 0, 0, 0, 0, 0,
    2, 0, 0, 0, 0, 0, 0, 0, 0, 0, 0, 0, 237, 65, 0, 0, 0, 0, 82, 47, 80, 75, 1, 2, 20, 3, 20, 0, 0, 0, 0, 0, 0, 0, 33,
    92, 216, 97, 202, 167, 8, 0, 0, 0, 8, 0, 0, 0, 18, 0, 0, 0, 0, 0, 0, 0, 0, 0, 0, 0, 128, 129, 32, 0, 0, 0, 82, 47,
    67, 111, 100, 101, 120, 45, 82, 111, 117, 116, 101, 114, 46, 101, 120, 101, 80, 75, 1, 2, 20, 3, 20, 0, 0, 0, 0,
    0, 0, 0, 33, 92, 79, 64, 0, 167, 119, 0, 0, 0, 119, 0, 0, 0, 23, 0, 0, 0, 0, 0, 0, 0, 0, 0, 0, 0, 128, 129, 88, 0,
    0, 0, 82, 47, 114, 101, 108, 101, 97, 115, 101, 45, 109, 97, 110, 105, 102, 101, 115, 116, 46, 106, 115, 111, 110,
    80, 75, 5, 6, 0, 0, 0, 0, 3, 0, 3, 0, 181, 0, 0, 0, 4, 1, 0, 0, 0, 0]

def packageLibs : PackageLibs Content where
  release := libs
  unzip bytes := if bytes = package then .ok archive else .error "the update ZIP is invalid"
  sha256 bytes := if bytes = package then "39c4e9d57a42877654bb059a34aee1596dbce026c260e800df271eed93e944fb" else ""

/-- The first mirror breaks off, the second rejects the request. -/
def answers : List DownloadAnswer :=
  [.success none [some (package.take 100), none], .rejected 404,
    .success (some 463) [some (package.take 300), some (package.drop 300)]]

def packageInfo : PackageInfo := ⟨463, "39c4e9d57a42877654bb059a34aee1596dbce026c260e800df271eed93e944fb"⟩

theorem staged_from_verified_sample : ∃ staged files world,
    downloadAndStageUpdate (fun _ _ => false) packageInfo packageLibs true false (fun _ => false) [] "staging" answers
        ⟨none, none⟩ parent = (.ok staged, files, world)
      ∧ ∃ bytes contentLength stream entries root release,
        files.destination = some bytes ∧ VerifiedPackage packageLibs.sha256 packageInfo bytes
          ∧ .success contentLength stream ∈ answers ∧ stream.content = some bytes
          ∧ packageLibs.unzip bytes = .ok entries ∧ world.tree.subtree? staged = some release ∧ StagedRelease packageLibs.release entries root release := by
  have hends : (downloadAndStageUpdate (fun _ _ => false) packageInfo packageLibs true false (fun _ => false) []
      "staging" answers ⟨none, none⟩ parent).1.isOk = true := by decide +kernel
  cases hrun : downloadAndStageUpdate (fun _ _ => false) packageInfo packageLibs true false (fun _ => false) [] "staging"
      answers ⟨none, none⟩ parent with
  | mk result rest =>
    obtain ⟨files, world⟩ := rest
    rw [hrun] at hends
    cases result with
    | error e => cases hends
    | ok staged =>
      exact ⟨staged, files, world, rfl, (staged_from_verified packageLibs (fun _ _ => false) packageInfo true false
        (fun _ => false) [] "staging" answers ⟨none, none⟩ files parent (.ok staged) world hrun).2 staged rfl⟩

end UpdateRun

end CodexRouter
