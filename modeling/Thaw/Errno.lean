namespace Thaw

inductive Errno where
  | noEntry
  | noProcess
  | execFormat
  | badDescriptor
  | permissionDenied
  | alreadyExists
  | notDirectory
  | isDirectory
  | tooManyOpenFiles
  | fileTooLarge
  | notEmpty
  | symlinkLoop
  deriving DecidableEq, Repr

namespace Errno

def number : Errno → Nat
  | noEntry => 2
  | noProcess => 3
  | execFormat => 8
  | badDescriptor => 9
  | permissionDenied => 13
  | alreadyExists => 17
  | notDirectory => 20
  | isDirectory => 21
  | tooManyOpenFiles => 24
  | fileTooLarge => 27
  | notEmpty => 39
  | symlinkLoop => 40

def description : Errno → String
  | noEntry => "No such file or directory"
  | noProcess => "No such process"
  | execFormat => "Exec format error"
  | badDescriptor => "Bad file descriptor"
  | permissionDenied => "Permission denied"
  | alreadyExists => "File exists"
  | notDirectory => "Not a directory"
  | isDirectory => "Is a directory"
  | tooManyOpenFiles => "Too many open files"
  | fileTooLarge => "File too large"
  | notEmpty => "Directory not empty"
  | symlinkLoop => "Too many levels of symbolic links"

def message (e : Errno) : String := s!"{e.description} (os error {e.number})"

end Errno

/-- Why a request to the operating system was not carried out. -/
inductive Refusal where
  | system (errno : Errno)
  /-- A path that names a file holds a NUL. -/
  | nulInPath
  /-- The name or an argument of a program to start holds a NUL. -/
  | nulInArgument
  /-- A file that should hold text is not UTF-8. -/
  | notText
  deriving DecidableEq, Repr

def Refusal.message : Refusal → String
  | .system errno => errno.message
  | .nulInPath => "file name contained an unexpected NUL byte"
  | .nulInArgument => "nul byte found in provided data"
  | .notText => "stream did not contain valid UTF-8"

end Thaw
