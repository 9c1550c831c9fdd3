/-
# Redaction of log texts

`redact_text` of `structured_log.rs` replaces the secrets of a text: for each of five
markers the run that starts at its first occurrence, then e-mail addresses and OAuth
parameters.

The code is written here for lists of cells that carry a character.  On characters it
is `redact_text`; on characters that are marked as secret or not, the same code shows
which secrets are left (`SecretsGone`).
-/
import CodexRouter.Base.Text

namespace CodexRouter

open Text

/-! ## `redact_text` -/

/-- What a run is replaced with. -/
def redacted : List Char := "[REDACTED]".toList

/-- What an e-mail address is replaced with. -/
def redactedEmail : List Char := "[REDACTED_EMAIL]".toList

/-- `[A-Z]` under `(?i)`, which also folds the long s and the Kelvin sign. -/
def isFoldedLetter (c : Char) : Bool :=
  'a' ≤ c && c ≤ 'z' || 'A' ≤ c && c ≤ 'Z' || c == 'ſ' || c == Char.ofNat 0x212A

/-- The longest match of `[A-Z0-9.-]+\.[A-Z]{2,}` at the front of a run of `[A-Z0-9.-]`. -/
def emailHostLength (host : List Char) : Option ℕ :=
  (List.range host.length).reverse.findSome? fun dot =>
    let letters := ((host.drop (dot + 1)).takeWhile isFoldedLetter).length
    if 0 < dot ∧ host[dot]? = some '.' ∧ 2 ≤ letters then some (dot + 1 + letters) else none

/-- The match of the e-mail pattern at the front: how much of it is kept, and its
length. -/
def matchEmail (cs : List Char) : Option (ℕ × ℕ) :=
  let user := cs.takeWhile fun c => isFoldedLetter c || isAsciiDigit c || c ∈ "._%+-".toList
  match user, cs.drop user.length with
  | _ :: _, '@' :: rest =>
    let host := rest.takeWhile fun c => isFoldedLetter c || isAsciiDigit c || c == '.' || c == '-'
    (emailHostLength host).map fun n => (0, user.length + 1 + n)
  | _, _ => none

/-- The match of the OAuth pattern at the front: the length of its first group, which
is kept, and its length. -/
def matchOauthQuery (cs : List Char) : Option (ℕ × ℕ) :=
  let fold := fun c : Char => if c = 'ſ' then 's' else c.toLower
  match cs with
  | [] => none
  | c :: rest =>
    if c = '?' ∨ c = '&' then
      (["code=", "state="].find? fun name =>
          name.toList.isPrefixOf ((rest.take name.length).map fold)).bind fun name =>
        let value := (rest.drop name.length).takeWhile fun c =>
          c ≠ '&' ∧ isWhitespace c = false ∧ c ≠ '"'
        if value = [] then none
        else some (1 + name.length, 1 + name.length + value.length)
    else none

section

variable {α : Type} (char : α → Char) (new : Char → α)

/-- One turn of the loop of `redact_text`: replace the run at the first occurrence of
the marker. -/
def redactMarker (marker : String) (output : List α) : List α :=
  match findChars marker.toList (output.map char) with
  | none => output
  | some index =>
    output.take index ++ redacted.map new
      ++ (output.drop index).dropWhile fun a => !isWhitespace (char a)

/-- `Regex::replace_all`: from the left, replace every match behind the part that is
kept; the number counts the cells of a match that are still to be skipped. -/
def replaceAll (pattern : List Char → Option (ℕ × ℕ)) (text : List Char) : ℕ → List α → List α
  | _, [] => []
  | n + 1, _ :: rest => replaceAll pattern text n rest
  | 0, a :: rest =>
    match pattern ((a :: rest).map char) with
    | none => a :: replaceAll pattern text 0 rest
    | some (kept, length) =>
      (a :: rest).take kept ++ text.map new ++ replaceAll pattern text (length - 1) rest

/-- The markers whose run is a secret. -/
def secretMarkers : List String := ["sk-", "xai-", "github_pat_", "GOCSPX-"]

/-- The loop of `redact_text`. -/
def redactMarkers (cells : List α) : List α :=
  ("Bearer " :: secretMarkers).foldl (fun output marker => redactMarker char new marker output) cells

/-- `redact_text`, on cells. -/
def redactCells (cells : List α) : List α :=
  replaceAll char new matchOauthQuery redacted 0
    (replaceAll char new matchEmail redactedEmail 0 (redactMarkers char new cells))

end

/-- `redact_text`. -/
def redactText (text : String) : String := String.ofList (redactCells id id text.toList)

/-! ## Secrets -/

/-- A marker that starts a secret stands at the front. -/
def startsSecret (cs : List Char) : Option String :=
  secretMarkers.find? fun m => m.toList.isPrefixOf cs

/-- A character of a text, and whether it belongs to a secret. -/
structure Cell where
  char : Char
  secret : Bool
  deriving DecidableEq, Repr

/-- A character that was put in. -/
def Cell.inserted (c : Char) : Cell := ⟨c, false⟩

/-- Mark the secrets: a secret starts at a marker and behind `Bearer `, and goes on to
the next white space.  The first list holds the characters before, the last one
first. -/
def markFrom (before : List Char) (inside : Bool) : List Char → List Cell
  | [] => []
  | c :: rest =>
    let starts := (startsSecret (c :: rest)).isSome
      || "Bearer ".toList.reverse.isPrefixOf before
    let secret := !isWhitespace c && (inside || starts)
    ⟨c, secret⟩ :: markFrom (c :: before) secret rest

/-- The text with its secrets marked. -/
def markSecrets (text : String) : List Cell := markFrom [] false text.toList

/-- No character of a secret is left in the redacted text. -/
def SecretsGone (text : String) : Prop :=
  ∀ c ∈ redactCells Cell.char Cell.inserted (markSecrets text), c.secret = false

instance (text : String) : Decidable (SecretsGone text) := by
  unfold SecretsGone
  infer_instance

/-- The text with every secret closed up. -/
def outside : List Cell → List (Option Char)
  | [] => []
  | c :: rest =>
    if c.secret then
      if rest.head?.any Cell.secret then outside rest else none :: outside rest
    else some c.char :: outside rest

/-- Two texts that differ inside of secrets only. -/
def DifferInSecrets (text other : String) : Prop :=
  outside (markSecrets text) = outside (markSecrets other)

example : redactText "GET /callback?code=one&state=two a@b.example sk-1 x" =
    "GET /callback?code=[REDACTED]&state=[REDACTED] [REDACTED_EMAIL] [REDACTED] x" := by
  decide +kernel

end CodexRouter
