/-
# The sandbox marker of Windows

`[windows].sandbox` belongs to Codex Desktop, and `elevated` means that its one-time setup is done.  The
marker is found and kept line by line (`windows_sandbox_value`, `preserve_windows_sandbox_config`), on the
text of a document.
-/
import CodexRouter.Base.Text

namespace CodexRouter

open Text

namespace SandboxText

/-- A line that starts a table, for the scanner. -/
def isHeaderLine (line : String) : Bool := startsWith (trim line) "["

/-- The loop of `windows_sandbox_value`; the first argument is `in_windows`. -/
def scanSandbox : Bool → List String → Option String
  | _, [] => none
  | inWindows, line :: rest =>
    let trimmed := trim line
    if isHeaderLine line then scanSandbox (trimmed = "[windows]") rest
    else if inWindows then
      match splitOnce '=' trimmed with
      | none => scanSandbox inWindows rest
      | some (key, value) =>
        let value := trim (trimMatches (· = '"') (trim value))
        if trim key = "sandbox" && value ≠ "" then some value else scanSandbox inWindows rest
    else scanSandbox inWindows rest

/-- `windows_sandbox_value`. -/
def windowsSandboxValue (text : String) : Option String := scanSandbox false (lines text)

/-- The marker that is to stand in the next document. -/
def preferredSandbox (current next : Option String) : Option String :=
  if current = some "elevated" || next = some "elevated" then some "elevated"
  else if next.isNone then current
  else none

/-- The line of the marker. -/
def sandboxLine (value : String) : String := "sandbox = \"" ++ value ++ "\""

/-- The loop of `preserve_windows_sandbox_config`: the lines, `in_windows`, `wrote` and `saw_windows`. -/
structure SandboxEdit where
  lines : List String := []
  inWindows : Bool := false
  wrote : Bool := false
  sawWindows : Bool := false
  deriving DecidableEq, Repr

/-- One line of it. -/
def SandboxEdit.step (value : String) (edit : SandboxEdit) (line : String) : SandboxEdit :=
  let trimmed := trim line
  if isHeaderLine line then
    let closes := edit.inWindows && !edit.wrote
    { lines := edit.lines ++ (if closes then [sandboxLine value] else []) ++ [line]
      inWindows := trimmed = "[windows]"
      wrote := edit.wrote || closes
      sawWindows := edit.sawWindows || trimmed = "[windows]" }
  else if edit.inWindows && trim (((split (· = '=') trimmed).head?).getD "") = "sandbox" then
    { edit with lines := edit.lines ++ (if edit.wrote then [] else [sandboxLine value]), wrote := true }
  else { edit with lines := edit.lines ++ [line] }

/-- What comes behind the last line. -/
def SandboxEdit.close (value : String) (edit : SandboxEdit) : SandboxEdit :=
  let edit :=
    if edit.inWindows && !edit.wrote then { edit with lines := edit.lines ++ [sandboxLine value], wrote := true } else edit
  if edit.sawWindows then edit
  else
    { edit with
      lines := edit.lines ++ (if edit.lines.getLast?.any (· ≠ "") then [""] else []) ++ ["[windows]", sandboxLine value]
      wrote := true }

/-- `preserve_windows_sandbox_config`. -/
def preserveWindowsSandboxConfig (current next : String) : String :=
  match preferredSandbox (windowsSandboxValue current) (windowsSandboxValue next) with
  | none => next
  | some value =>
    if windowsSandboxValue next = some value then next
    else
      let newline := if contains next "\r\n" then "\r\n" else "\n"
      let edit := ((lines next).foldl (SandboxEdit.step value) {}).close value
      let result := join newline edit.lines
      if (endsWith next "\n" || endsWith next "\r" || edit.wrote) && !endsWith result newline then result ++ newline
      else result

/-- The marker that is found stays where both documents have it. -/
theorem preserveWindowsSandboxConfig_of_eq {current next : String}
    (h : windowsSandboxValue current = windowsSandboxValue next) : preserveWindowsSandboxConfig current next = next := by
  unfold preserveWindowsSandboxConfig
  rw [h]
  cases hnext : windowsSandboxValue next with
  | none => rfl
  | some value =>
    unfold preferredSandbox
    by_cases helevated : value = "elevated"
    · subst helevated
      rfl
    · have hno : ¬ some value = some "elevated" := fun heq => helevated (Option.some.inj heq)
      simp [hno]

example : preserveWindowsSandboxConfig "[windows]\nsandbox = \"elevated\"\n" "model = \"a\"\n"
    = "model = \"a\"\n\n[windows]\nsandbox = \"elevated\"\n" := by decide +kernel

end SandboxText

end CodexRouter
