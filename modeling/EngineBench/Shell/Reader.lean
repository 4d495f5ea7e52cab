import EngineBench.Shell.Token

/-!
# Reading shell scripts

A reader for the grammar of lists, conditions, loops, groups and simple commands. A word is
reserved only where a command begins, and only if it is not quoted. The readers of the levels of the
grammar call each other, so they share a bound on their depth; no level takes more than a token and
its own four levels, which `Script.read?` accounts for.
-/

namespace EngineBench.Shell

/-- The text of a word that is nothing but unquoted bytes. -/
def bareText? : Token → Option Bytes
  | .word [.literal bs false] _ => some bs
  | _ => none

def isReserved (name : String) (t : Token) : Bool := bareText? t = some (Text.encode name)

def closers : List String := ["then", "elif", "else", "fi", "do", "done", "\x7d"]

def closes (t : Token) : Bool :=
  t = .operator .rightParenthesis || closers.any fun name => isReserved name t

def skipNewlines (ts : List Token) : List Token := ts.dropWhile (· = .newline)

/-- The tokens behind a reserved word that has to come. -/
def expect (name : String) : List Token → Option (List Token)
  | t :: r => if isReserved name t then some r else none
  | [] => none

/-- The name and the value of a word that is an assignment. -/
def assignment? : Word → Option (Bytes × Word)
  | .literal bs false :: r =>
    let name := bs.takeWhile (· ≠ 0x3D)
    match name, bs.drop name.length with
    | first :: _, _ :: value =>
      if name.all Lexer.isNameByte && !(Char.ofUInt8 first).isDigit then
        some (name, if value.isEmpty then r else .literal value false :: r)
      else none
    | _, _ => none
  | _ => none

/-- The parts of a simple command; all are kept in reverse. -/
structure Simple where
  assignments : List (Bytes × Word)
  words : List Word
  redirections : List Redirection

namespace Simple

def empty : Simple := ⟨[], [], []⟩

/-- Adds a word: an assignment, as long as there is no other word. -/
def addWord (s : Simple) (w : Word) : Simple :=
  match s.words, assignment? w with
  | [], some a => { s with assignments := a :: s.assignments }
  | _, _ => { s with words := w :: s.words }

def addRedirection (s : Simple) (stream : Nat) (r : Redirect) : Simple :=
  { s with redirections := ⟨stream, r⟩ :: s.redirections }

def isSome (s : Simple) : Bool :=
  !(s.assignments.isEmpty && s.words.isEmpty && s.redirections.isEmpty)

def toScript (s : Simple) (line : Nat) : Script :=
  .command line s.assignments.reverse s.words.reverse s.redirections.reverse

def read (s : Simple) : List Token → Option (Simple × List Token)
  | .word w _ :: r => (s.addWord w).read r
  | .redirect stream o :: .word w _ :: r => (s.addRedirection stream (o.apply w)).read r
  | .redirect _ _ :: _ => none
  | r => some (s, r)

end Simple

/-- Reads redirections behind a compound command. -/
def readRedirections : List Token → Option (List Redirection × List Token)
  | .redirect stream o :: .word w _ :: r => do
    let (rest, r) ← readRedirections r
    return (⟨stream, o.apply w⟩ :: rest, r)
  | .redirect _ _ :: _ => none
  | r => some ([], r)

def wrap (s : Script) (ts : List Token) : Option (Script × List Token) := do
  let (redirections, r) ← readRedirections ts
  return (if redirections.isEmpty then s else .group s redirections, r)

def readWords : List Token → List Word × List Token
  | .word w _ :: r =>
    let (ws, r) := readWords r
    (w :: ws, r)
  | r => ([], r)

def lineOf : List Token → Nat
  | .word _ line :: _ => line
  | .redirect _ _ :: r => lineOf r
  | _ => 1

mutual

def readList : Nat → List Token → Option (Script × List Token)
  | 0, _ => none
  | n + 1, ts =>
    match skipNewlines ts with
    | [] => some (.nothing, [])
    | t :: r =>
      if closes t then some (.nothing, t :: r)
      else do
        let (first, r) ← readConnected n (t :: r)
        match r with
        | .newline :: r | .operator .semicolon :: r =>
          let (second, r) ← readList n r
          return (.sequence first second, r)
        | .operator .ampersand :: r =>
          let (second, r) ← readList n r
          return (.sequence (.background first) second, r)
        | [] => return (first, [])
        | t :: r => if closes t then return (first, t :: r) else none

/-- Reads commands that are connected by conditions on their success. -/
def readConnected : Nat → List Token → Option (Script × List Token)
  | 0, _ => none
  | n + 1, ts => do
    let (first, r) ← readNegated n ts
    readConditions n first r

/-- Reads the conditional commands behind a first one. -/
def readConditions : Nat → Script → List Token → Option (Script × List Token)
  | 0, _, _ => none
  | n + 1, first, .operator .andIf :: r => do
    let (second, r) ← readNegated n (skipNewlines r)
    readConditions n (.both first second) r
  | n + 1, first, .operator .orIf :: r => do
    let (second, r) ← readNegated n (skipNewlines r)
    readConditions n (.either first second) r
  | _ + 1, first, r => some (first, r)

/-- Reads a command that may be negated. -/
def readNegated : Nat → List Token → Option (Script × List Token)
  | 0, _ => none
  | n + 1, t :: r =>
    if isReserved "!" t then do
      let (s, r) ← readCommand n r
      return (.negated s, r)
    else readCommand n (t :: r)
  | _ + 1, [] => none

def readCommand : Nat → List Token → Option (Script × List Token)
  | 0, _ => none
  | _ + 1, [] => none
  | n + 1, t :: r =>
    if t = .operator .leftParenthesis then do
      let (s, r) ← readList n r
      match r with
      | .operator .rightParenthesis :: r =>
        let (redirections, r) ← readRedirections r
        return (.subshell s redirections, r)
      | _ => none
    else if isReserved "\x7b" t then do
      let (s, r) ← readList n r
      wrap s (← expect "\x7d" r)
    else if isReserved "if" t then do
      let (s, r) ← readChoice n r
      wrap s r
    else if isReserved "while" t then do
      let (s, r) ← readLoop n false r
      wrap s r
    else if isReserved "until" t then do
      let (s, r) ← readLoop n true r
      wrap s r
    else if isReserved "for" t then do
      let (s, r) ← readEach n r
      wrap s r
    else if closes t then none
    else do
      let (s, rest) ← Simple.empty.read (t :: r)
      if s.isSome then return (s.toScript (lineOf (t :: r)), rest) else none

def readChoice : Nat → List Token → Option (Script × List Token)
  | 0, _ => none
  | n + 1, ts => do
    let (condition, r) ← readList n ts
    let (consequence, r) ← readList n (← expect "then" r)
    match r with
    | [] => none
    | t :: r =>
      if isReserved "elif" t then
        let (alternative, r) ← readChoice n r
        return (.choice condition consequence alternative, r)
      else if isReserved "else" t then
        let (alternative, r) ← readList n r
        return (.choice condition consequence alternative, ← expect "fi" r)
      else if isReserved "fi" t then return (.choice condition consequence .nothing, r)
      else none

def readLoop : Nat → Bool → List Token → Option (Script × List Token)
  | 0, _, _ => none
  | n + 1, whileFails, ts => do
    let (condition, r) ← readList n ts
    let (body, r) ← readList n (← expect "do" r)
    return (.loop whileFails condition body, ← expect "done" r)

/-- Reads a loop through words behind its first word. Without words it goes through the
arguments. -/
def readEach : Nat → List Token → Option (Script × List Token)
  | 0, _ => none
  | _ + 1, [] => none
  | n + 1, t :: r => do
    let name ← bareText? t
    let (words, r) :=
      match skipNewlines r with
      | t :: r' =>
        if isReserved "in" t then readWords r' else ([[.parameter [0x40] .plain true]], r)
      | [] => ([], [])
    let r :=
      match r with
      | .operator .semicolon :: r => r
      | r => r
    let (body, r) ← readList n (← expect "do" (skipNewlines r))
    return (.each name words body, ← expect "done" r)

end

def Script.read? (script : Bytes) : Option Script := do
  let ts ← tokens? script
  let (s, r) ← readList (5 * ts.length + 5) ts
  if r.isEmpty then return s else none

end EngineBench.Shell
