/-! Why the system refused to act on a file or to start a program, and the text it gives. -/
namespace GatedRelease

/-- A reason of the operating system's. -/
inductive Cause
  | notFound
  | listTooLong
  | badFormat
  /-- No file is open under the number. -/
  | badDescriptor
  | denied
  | busy
  | alreadyExists
  | notDirectory
  | isDirectory
  | invalidArgument
  | noSpace
  | nameTooLong
  | notEmpty
  | tooManyLinks
  /-- A path holds a NUL. -/
  | nulInPath
  /-- What a program is started with holds a NUL. -/
  | nulInData
  /-- A file is not text. -/
  | notText
deriving DecidableEq

namespace Cause

/-- The reason in words. -/
def words : Cause → String
  | notFound => "No such file or directory"
  | listTooLong => "Argument list too long"
  | badFormat => "Exec format error"
  | badDescriptor => "Bad file descriptor"
  | denied => "Permission denied"
  | busy => "Device or resource busy"
  | alreadyExists => "File exists"
  | notDirectory => "Not a directory"
  | isDirectory => "Is a directory"
  | invalidArgument => "Invalid argument"
  | noSpace => "No space left on device"
  | nameTooLong => "File name too long"
  | notEmpty => "Directory not empty"
  | tooManyLinks => "Too many levels of symbolic links"
  | nulInPath => "file name contained an unexpected NUL byte"
  | nulInData => "nul byte found in provided data"
  | notText => "stream did not contain valid UTF-8"

/-- The number of a reason that the system gives. -/
def number? : Cause → Option Nat
  | notFound => some 2
  | listTooLong => some 7
  | badFormat => some 8
  | badDescriptor => some 9
  | denied => some 13
  | busy => some 16
  | alreadyExists => some 17
  | notDirectory => some 20
  | isDirectory => some 21
  | invalidArgument => some 22
  | noSpace => some 28
  | nameTooLong => some 36
  | notEmpty => some 39
  | tooManyLinks => some 40
  | nulInPath | nulInData | notText => none

/-- The reason in words, with its number where it has one. -/
def message (c : Cause) : String :=
  match c.number? with
  | some n => s!"{c.words} (os error {n})"
  | none => c.words

end Cause
end GatedRelease
