import EngineBench.OsError
import EngineBench.Path

/-!
# File trees

A tree of directories, files and devices, without links. A place in the tree is named by the parts
on the way from the root. Paths are walked part by part: each part but the last has to be a
directory that is there, `..` leads to the place above, and the last part may be vacant.

Besides what stands at a place, a tree says what may be done there: making or opening something can
be refused, and a file can be written up to a limit only. So every operation that the system may
fail can fail here, and with any error.

* `get?_put` says what putting something at a place does to look-ups.
* `Limit.fit` is what comes of a content where there is a limit.
-/

namespace EngineBench

/-- A place in a tree: the parts on the way from the root. -/
abbrev Location := List Bytes

/-- How many bytes can be written, and the error for more: a quota, a full disk, a broken one. -/
structure Limit where
  room : Nat
  error : OsError
  deriving DecidableEq, Repr

/-- What comes of bytes behind `used` others, and which of them are written. -/
def Limit.fit (limit? : Option Limit) (used : Nat) (bytes : Bytes) : Except OsError Unit × Bytes :=
  match limit? with
  | none => (.ok (), bytes)
  | some limit =>
    if bytes.length ≤ limit.room - used then (.ok (), bytes)
    else (.error limit.error, bytes.take (limit.room - used))

/-- A file that is no store, such as a character device, a pipe or a terminal. What it takes goes
elsewhere, and nothing is read from it. -/
structure Device where
  /-- How much it takes at once, unless it takes everything. -/
  limit? : Option Limit
  deriving DecidableEq, Repr

namespace Device

/-- Takes everything. -/
def null : Device := ⟨none⟩

/-- Has no space. -/
def full : Device := ⟨some ⟨0, .noSpace⟩⟩

end Device

/-- What stands at a place. -/
inductive Node where
  | directory
  | file (content : Bytes)
  /-- A program, known by its name. -/
  | tool (name : String)
  | device (d : Device)
  deriving DecidableEq, Repr

/-- A tree: what stands at the places below the root, and what may be done there. -/
structure FileTree where
  entries : List (Location × Node)
  /-- Why nothing can be made at a place, and what is there cannot be opened for writing: for want
  of rights, on a medium that is only read, at a socket. -/
  refusal? : Location → Option OsError
  /-- How much a file at a place can hold. -/
  limit? : Location → Option Limit
  deriving Inhabited

namespace FileTree

/-- A tree in which everything may be done. -/
def free (entries : List (Location × Node)) : FileTree := ⟨entries, fun _ => none, fun _ => none⟩

/-- Nothing but the root. -/
def empty : FileTree := free []

def get? (t : FileTree) (l : Location) : Option Node :=
  if l = [] then some .directory else t.entries.lookup l

def put (t : FileTree) (l : Location) (n : Node) : FileTree :=
  { t with entries := (l, n) :: t.entries.filter fun e => e.1 ≠ l }

theorem lookup_filter_ne {l m : Location} (h : m ≠ l) (es : List (Location × Node)) :
    (es.filter fun e => e.1 ≠ l).lookup m = es.lookup m := by
  induction es with
  | nil => rfl
  | cons e r ih =>
    obtain ⟨k, n⟩ := e
    by_cases hk : k = l
    · subst hk
      simpa [List.lookup_cons, beq_eq_false_iff_ne.mpr h] using ih
    · by_cases hm : m = k
      · subst hm; simp [hk]
      · simpa [hk, List.lookup_cons, beq_eq_false_iff_ne.mpr hm] using ih

/-- Only the look-up of the place itself changes. -/
theorem get?_put (t : FileTree) {l : Location} (hl : l ≠ []) (n : Node) (m : Location) :
    (t.put l n).get? m = if m = l then some n else t.get? m := by
  by_cases hm : m = l
  · subst hm; simp [get?, put, hl]
  · by_cases hn : m = []
    · simp [get?, hn, Ne.symm hl]
    · simp only [get?, put, hn, if_false, hm]
      rw [List.lookup_cons, beq_eq_false_iff_ne.mpr hm]
      exact lookup_filter_ne hm t.entries

/-! ## Walking -/

/-- Where a path leads. -/
inductive Place where
  | taken (l : Location) (n : Node)
  /-- Nothing is there, but the place is in a directory. -/
  | vacant (l : Location)
  deriving DecidableEq

def maxName : Nat := 255

/-- The longest path, with its end mark. -/
def maxPath : Nat := 4096

def walk (t : FileTree) (l : Location) : List Bytes → Except OsError Place
  | [] =>
    match t.get? l with
    | some n => .ok (.taken l n)
    | none => .error .notFound
  | part :: rest =>
    if t.get? l ≠ some .directory then .error .notADirectory
    else if part = Path.here then walk t l rest
    else if part = Path.up then walk t l.dropLast rest
    else if maxName < part.length then .error .nameTooLong
    else if (t.get? (l ++ [part])).isSome then walk t (l ++ [part]) rest
    else if rest = [] then .ok (.vacant (l ++ [part]))
    else .error .notFound

/-- Where a path leads from a working directory. A file is not found by a path that ends in `/`. -/
def locate (t : FileTree) (directory : Location) (p : Path) : Except OsError Place :=
  if p.bytes.contains 0 then .error .zeroInPath
  else if p.bytes.isEmpty then .error .notFound
  else if maxPath ≤ p.bytes.length then .error .nameTooLong
  else
    let start := if p.isAbsolute then [] else directory
    match t.walk start ((Path.pieces p.bytes).filter (· ≠ [])) with
    | .ok (.taken l n) =>
      if p.hasTrailingSlash && n ≠ .directory then .error .notADirectory else .ok (.taken l n)
    | r => r

/-! ## Reading -/

def isFile (t : FileTree) (directory : Location) (p : Path) : Bool :=
  match t.locate directory p with
  | .ok (.taken _ (.file _)) => true
  | .ok (.taken _ (.tool _)) => true
  | _ => false

def isDirectory (t : FileTree) (directory : Location) (p : Path) : Bool :=
  match t.locate directory p with
  | .ok (.taken _ .directory) => true
  | _ => false

def read (t : FileTree) (directory : Location) (p : Path) : Except OsError Bytes :=
  match t.locate directory p with
  | .error e => .error e
  | .ok (.vacant _) => .error .notFound
  | .ok (.taken _ .directory) => .error .isADirectory
  | .ok (.taken _ (.file content)) => .ok content
  | .ok (.taken _ (.tool _)) => .ok []
  | .ok (.taken _ (.device _)) => .ok []

/-! ## Writing -/

/-- What comes of something that is done at a place. -/
def unlessRefused {α : Type} (t : FileTree) (l : Location) (done : α) : Except OsError α :=
  match t.refusal? l with
  | some e => .error e
  | none => .ok done

theorem unlessRefused_eq_ok_iff {α : Type} {t : FileTree} {l : Location} {done r : α} :
    t.unlessRefused l done = .ok r ↔ t.refusal? l = none ∧ done = r := by
  rw [unlessRefused]
  cases t.refusal? l with
  | none => simp
  | some e => simp

/-- A file that is open for writing. -/
inductive Opened where
  | file (l : Location)
  | device (d : Device)
  deriving DecidableEq

/-- Opens a file for writing, and makes it if it is missing; `fresh` empties it. -/
def openFile (t : FileTree) (directory : Location) (p : Path) (fresh : Bool) :
    Except OsError (Opened × FileTree) :=
  match t.locate directory p with
  | .error e => .error e
  | .ok (.vacant l) =>
    if p.hasTrailingSlash then .error .isADirectory
    else t.unlessRefused l (.file l, t.put l (.file []))
  | .ok (.taken _ .directory) => .error .isADirectory
  | .ok (.taken l (.file _)) =>
    t.unlessRefused l (.file l, if fresh then t.put l (.file []) else t)
  | .ok (.taken _ (.tool _)) => .error .accessDenied
  | .ok (.taken l (.device d)) => t.unlessRefused l (.device d, t)

/-- Writes to the end of an open file. What was written before something went wrong is there. -/
def append (t : FileTree) (o : Opened) (bytes : Bytes) : Except OsError Unit × FileTree :=
  match o with
  | .file l =>
    match t.get? l with
    | some (.file content) =>
      let (r, written) := Limit.fit (t.limit? l) content.length bytes
      (r, t.put l (.file (content ++ written)))
    | _ => (.ok (), t)
  | .device d => ((Limit.fit d.limit? 0 bytes).1, t)

/-- Makes a file with a content, or replaces its content. The old content is gone as soon as the
file is open, whatever becomes of the new one. -/
def write (t : FileTree) (directory : Location) (p : Path) (bytes : Bytes) :
    Except OsError Unit × FileTree :=
  match t.openFile directory p true with
  | .error e => (.error e, t)
  | .ok (o, t) => t.append o bytes

/-- Removes what stands at a place, with all below it. -/
def remove (t : FileTree) (l : Location) : FileTree :=
  { t with entries := t.entries.filter fun e => e.1.take l.length ≠ l }

def makeDirectory (t : FileTree) (directory : Location) (p : Path) : Except OsError FileTree :=
  match t.locate directory p with
  | .error e => .error e
  | .ok (.taken _ _) => .error .alreadyExists
  | .ok (.vacant l) => t.unlessRefused l (t.put l .directory)

/-- Makes one directory; that it is there is no error. -/
def provideDirectory (t : FileTree) (directory : Location) (p : Path) :
    Except OsError Unit × FileTree :=
  match t.makeDirectory directory p with
  | .ok t => (.ok (), t)
  | .error e => (if t.isDirectory directory p then .ok () else .error e, t)

/-- Makes a directory and up to `n` above it, as far as they are missing. Those above are made only
if the directory cannot be made without them. -/
def makeDirectoriesUpTo (t : FileTree) (directory : Location) :
    Nat → Path → Except OsError Unit × FileTree
  | 0, p => t.provideDirectory directory p
  | n + 1, p =>
    if p.bytes.isEmpty then (.ok (), t)
    else
      match t.makeDirectory directory p, p.parent? with
      | .error .notFound, some q =>
        match t.makeDirectoriesUpTo directory n q with
        | (.error e, t) => (.error e, t)
        | (.ok (), t) => t.provideDirectory directory p
      | _, _ => t.provideDirectory directory p

/-- Makes a directory and those above it, as far as they are missing. -/
def makeDirectories (t : FileTree) (directory : Location) (p : Path) :
    Except OsError Unit × FileTree :=
  t.makeDirectoriesUpTo directory p.parts.length p

end FileTree

end EngineBench
