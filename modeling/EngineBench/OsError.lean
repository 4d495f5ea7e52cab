/-!
# Errors of the operating system

What can go wrong with files, programs and ports, and how the system words it.
-/

namespace EngineBench

/-- An error of the operating system. -/
inductive OsError where
  | notPermitted
  | notFound
  | accessDenied
  | alreadyExists
  | notADirectory
  | isADirectory
  | noSpace
  | nameTooLong
  | addressInUse
  | connectionRefused
  | zeroInPath
  /-- A program name or argument with a zero byte. -/
  | zeroInCommand
  /-- Any other error, by its number and its text. -/
  | other (number : Nat) (text : String)
  deriving DecidableEq, Repr

namespace OsError

def text : OsError → String
  | notPermitted => "Operation not permitted"
  | notFound => "No such file or directory"
  | accessDenied => "Permission denied"
  | alreadyExists => "File exists"
  | notADirectory => "Not a directory"
  | isADirectory => "Is a directory"
  | noSpace => "No space left on device"
  | nameTooLong => "File name too long"
  | addressInUse => "Address already in use"
  | connectionRefused => "Connection refused"
  | zeroInPath => "file name contained an unexpected NUL byte"
  | zeroInCommand => "nul byte found in provided data"
  | other _ text => text

/-- The number of an error; a zero byte is found before the system is asked. -/
def number? : OsError → Option Nat
  | notPermitted => some 1
  | notFound => some 2
  | accessDenied => some 13
  | alreadyExists => some 17
  | notADirectory => some 20
  | isADirectory => some 21
  | noSpace => some 28
  | nameTooLong => some 36
  | addressInUse => some 98
  | connectionRefused => some 111
  | zeroInPath => none
  | zeroInCommand => none
  | other n _ => some n

def message (e : OsError) : String :=
  match e.number? with
  | some n => e.text ++ " (os error " ++ toString n ++ ")"
  | none => e.text

end OsError

end EngineBench
