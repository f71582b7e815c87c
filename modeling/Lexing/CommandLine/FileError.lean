/-!
# Faults of reading a file
-/

namespace Lexing.CommandLine

/-- Why a file could not be read as text. -/
inductive FileError where
  | notFound
  | permissionDenied
  | invalidUtf8
  | isDirectory
  | notDirectory
  | nameTooLong
  /-- Another fault, in the words of the system. -/
  | other (description : String)
  deriving DecidableEq, Repr

/-- What is told about a file that could not be read. -/
def FileError.message (path : String) : FileError → String
  | notFound => "cannot find file '" ++ path ++ "'"
  | permissionDenied => "permission denied reading '" ++ path ++ "'"
  | invalidUtf8 => "'" ++ path ++ "' contains invalid UTF-8 data"
  | isDirectory => failed "Is a directory (os error 21)"
  | notDirectory => failed "Not a directory (os error 20)"
  | nameTooLong => failed "File name too long (os error 36)"
  | other description => failed description
where
  failed (description : String) : String := "error reading '" ++ path ++ "': " ++ description

end Lexing.CommandLine
