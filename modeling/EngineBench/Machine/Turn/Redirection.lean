import EngineBench.Machine.Turn.Expansion

/-!
# Redirections

A redirection leads a stream to a file, or to where another stream leads. Redirections are applied
in their order, and the first that is not possible ends the command.
-/

namespace EngineBench.Turn

open Shell

def openStream (t : Turn) (n : Nat) (path : Bytes) (fresh : Bool) : Except Bytes Turn :=
  match t.machine.files.openFile t.machine.directory ⟨path⟩ fresh with
  | .ok (o, files) => .ok ({ t with machine := { t.machine with files } }.setStream n (.opened o))
  | .error e =>
    let reason := if e = .notFound || e = .notADirectory then "Directory nonexistent" else e.text
    .error (Text.encode "cannot create " ++ path ++ Text.encode (": " ++ reason))

def openInput (t : Turn) (n : Nat) (path : Bytes) : Except Bytes Turn :=
  let refused (reason : String) :=
    Except.error (Text.encode "cannot open " ++ path ++ Text.encode (": " ++ reason))
  match t.machine.files.locate t.machine.directory ⟨path⟩ with
  | .ok (.taken l (.file _)) => .ok (t.setStream n (.opened (.file l)))
  | .ok (.taken _ (.device d)) => .ok (t.setStream n (.opened (.device d)))
  | .ok (.taken l _) => .ok (t.setStream n (.opened (.file l)))
  | .ok (.vacant _) => refused "No such file"
  | .error e => refused (if e = .notFound || e = .notADirectory then "No such file" else e.text)

/-- Applies one redirection, or says why that is not possible. -/
def redirect (t : Turn) (r : Redirection) : Except Bytes Turn :=
  match r.redirect with
  | .input w => t.openInput r.stream (t.expandWhole w)
  | .output w => t.openStream r.stream (t.expandWhole w) true
  | .append w => t.openStream r.stream (t.expandWhole w) false
  | .duplicate w =>
    let target := t.expandWhole w
    if target = [0x2D] then .ok (t.setStream r.stream .closed)
    else
      match natural? target with
      | none => .error (Text.encode "Bad fd number")
      | some n =>
        match t.process.streams.get n with
        | .closed => .error (target ++ Text.encode ": Bad file descriptor")
        | s => .ok (t.setStream r.stream s)

def redirectAll (t : Turn) (rs : List Redirection) : Except Bytes Turn := rs.foldlM redirect t

end EngineBench.Turn
