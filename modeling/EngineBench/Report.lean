import EngineBench.Json.Printer
import EngineBench.Summary.Json

/-!
# Run reports

A report is the summary of a run as a JSON file. The text is made before the file is touched, so a
summary that cannot be written leaves an earlier report alone.
-/

namespace EngineBench

inductive ReportError where
  /-- A directory or the file cannot be made. -/
  | file (e : OsError)
  | pathNotText
  deriving DecidableEq

def ReportError.message : ReportError → String
  | file e => e.message
  | pathNotText => "path contains invalid UTF-8 characters"

namespace Report

variable {σ : Type}

def text? (s : Summary) : Option String := s.toJson?.map Json.pretty

/-- Writes a report to a file, and makes the directories above it. -/
def write (h : Host σ) (p : Path) (summary : Summary) (s : σ) : Except ReportError Unit × σ :=
  match h.makeParent p s with
  | (.error e, s) => (.error (.file e), s)
  | (.ok (), s) =>
    match text? summary with
    | none => (.error .pathNotText, s)
    | some text =>
      let (result, s) := h.writeFile p (Text.encode text) s
      (result.mapError .file, s)

end Report

end EngineBench
