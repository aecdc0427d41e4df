/-!
# Faults of files and outputs

What can go wrong between this library and the things it reads from and writes to, in the words
in which it is passed on. Faults of the file system carry the number of the system's own error.
-/

namespace GraphMarkup

/-- Why bytes could not be read or written. -/
inductive Fault where
  | noSuchFile
  | notDirectory
  | isDirectory
  | noSpace
  | nameTooLong
  /-- A path holds the character that ends a path, so no system can be asked for it. -/
  | nulInPath
  /-- Bytes that should have been text are not valid UTF-8. -/
  | invalidText
  /-- An output took no byte of what it was given and gave no reason. -/
  | wroteNothing
  /-- There is no fragment of that name among those held in memory. -/
  | missingFragment (name : String)
  /-- A reason given by the output itself. -/
  | refused (reason : String)
deriving DecidableEq, Repr, Inhabited

/-- A fault in words. -/
def Fault.message : Fault → String
  | .noSuchFile => "No such file or directory (os error 2)"
  | .notDirectory => "Not a directory (os error 20)"
  | .isDirectory => "Is a directory (os error 21)"
  | .noSpace => "No space left on device (os error 28)"
  | .nameTooLong => "File name too long (os error 36)"
  | .nulInPath => "file name contained an unexpected NUL byte"
  | .invalidText => "stream did not contain valid UTF-8"
  | .wroteNothing => "failed to write whole buffer"
  | .missingFragment name => "fragment not found in memory: " ++ name
  | .refused reason => reason

/-- The fault that a system's error stands for, by its number and its words. -/
def Fault.ofSystem (number : Nat) (words : String) : Fault :=
  match number with
  | 2 => .noSuchFile
  | 20 => .notDirectory
  | 21 => .isDirectory
  | 28 => .noSpace
  | 36 => .nameTooLong
  | _ => .refused (words ++ " (os error " ++ toString number ++ ")")

end GraphMarkup
