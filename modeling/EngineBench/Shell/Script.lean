import EngineBench.Text.Utf8

/-!
# Shell scripts

The commands of a small shell: lists, conditions, loops, groups, and simple commands with
redirections. Words keep their quotes, because what becomes of an expansion depends on them. There
are no pipes, no functions and no substitution of commands.
-/

namespace EngineBench.Shell

/-- What an expansion makes of the value of a parameter. -/
inductive Modifier where
  | plain
  | length
  /-- A word instead of a value that is missing; if `nonEmpty`, also instead of an empty one. -/
  | default (nonEmpty : Bool) (word : Bytes)
  /-- A word instead of a value that is there; if `nonEmpty`, only of one that is not empty. -/
  | alternative (nonEmpty : Bool) (word : Bytes)
  deriving DecidableEq, Repr

/-- A piece of a word. -/
inductive Piece where
  /-- Bytes as they are; quoted ones are never split. -/
  | literal (bytes : Bytes) (quoted : Bool)
  /-- The value of a parameter, or what is made of it. -/
  | parameter (name : Bytes) (modifier : Modifier) (quoted : Bool)
  deriving DecidableEq, Repr

abbrev Word := List Piece

/-- What a redirection does to a stream. -/
inductive Redirect where
  | input (w : Word)
  | output (w : Word)
  | append (w : Word)
  /-- Takes the stream of another number, or none. -/
  | duplicate (w : Word)
  deriving DecidableEq, Repr

/-- A redirection of the stream with a number. -/
structure Redirection where
  stream : Nat
  redirect : Redirect
  deriving DecidableEq, Repr

inductive Script where
  | nothing
  /-- A simple command, with the number of its line. -/
  | command (line : Nat) (assignments : List (Bytes × Word)) (words : List Word)
      (redirections : List Redirection)
  | sequence (first second : Script)
  /-- The second is run if the first succeeds. -/
  | both (first second : Script)
  /-- The second is run if the first fails. -/
  | either (first second : Script)
  | negated (s : Script)
  | background (s : Script)
  | group (s : Script) (redirections : List Redirection)
  | subshell (s : Script) (redirections : List Redirection)
  | choice (condition consequence alternative : Script)
  /-- Runs the body while the condition succeeds, or while it fails. -/
  | loop (whileFails : Bool) (condition body : Script)
  /-- Runs the body for each word as the value of a variable. -/
  | each (name : Bytes) (words : List Word) (body : Script)
  deriving Repr, Inhabited

end EngineBench.Shell
