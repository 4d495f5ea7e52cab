import EngineBench.Host
import EngineBench.Settings
import EngineBench.Toml.Reader
import EngineBench.Toml.Record

/-!
# Loading settings

Settings are loaded from a file that is named, or from the nearest file of the usual name in the
working directory or above it, or are the standard ones. A file that was found is the only one that
counts, even if it cannot be loaded.
-/

namespace EngineBench

namespace Path

/-- A path and the paths above it, the deepest first; `n` bounds how far up they go. -/
def ancestorsUpTo : Nat → Path → List Path
  | 0, p => [p]
  | n + 1, p =>
    match p.parent? with
    | some q => p :: ancestorsUpTo n q
    | none => [p]

/-- A path and all paths above it, the deepest first. -/
def ancestors (p : Path) : List Path := ancestorsUpTo p.parts.length p

end Path

namespace Settings

variable {σ : Type}

def fileName : String := "servebench.toml"

inductive LoadError where
  | unreadable (p : Path) (e : OsError)
  | notText (p : Path)
  /-- The text is not TOML, or a field has the wrong type. -/
  | malformed (p : Path)
  | refused (v : Violation)
  deriving DecidableEq

def LoadError.message : LoadError → String
  | unreadable p e => "cannot read " ++ p.text ++ ": " ++ e.message
  | notText p => "cannot read " ++ p.text ++ ": stream did not contain valid UTF-8"
  | malformed p => "invalid settings in " ++ p.text
  | refused v => v.message

/-- The settings that a text spells, unchecked. -/
def ofText? (text : String) : Option Settings := (Toml.read? text).bind (read? Toml.format)

def load (h : Host σ) (p : Path) (s : σ) : Except LoadError Settings :=
  match h.readFile p s with
  | .error e => .error (.unreadable p e)
  | .ok content =>
    match Text.decode? content with
    | none => .error (.notText p)
    | some text =>
      match ofText? text with
      | none => .error (.malformed p)
      | some settings =>
        match settings.violation? with
        | some v => .error (.refused v)
        | none => .ok settings

/-- The places where a settings file is looked for, the nearest first. -/
def candidates (directory : Path) : List Path :=
  directory.ancestors.map fun d => d.child (Text.encode fileName)

def discover (h : Host σ) (s : σ) : Option Path :=
  (h.workingDirectory s).bind fun d => (candidates d).find? fun p => h.isFile p s

/-- The settings of a run, with the path of a file if one was named. -/
def resolve (h : Host σ) (named : Option Path) (s : σ) : Except LoadError Settings :=
  match named with
  | some p => load h p s
  | none =>
    match discover h s with
    | some p => load h p s
    | none => .ok standard

/-- What engine and client get to see on top of the environment of this process. A search path that
is not UTF-8 counts as none. -/
def environment (h : Host σ) (settings : Settings) (s : σ) : Overlay :=
  settings.runtime.overlay ((h.getVariable "PATH" s).bind Text.decode?)

end Settings

end EngineBench
