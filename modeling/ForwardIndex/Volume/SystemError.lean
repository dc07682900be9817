import ForwardIndex.Text

/-!
# Errors of the file system

The reasons for which an operation on files is refused, and the words in which they are reported.
-/
set_option autoImplicit false
namespace ForwardIndex

inductive SystemError where
  | notFound
  | interrupted
  | inputOutput
  | busy
  | alreadyExists
  | notDirectory
  | isDirectory
  | invalidArgument
  | noSpace
  | nameTooLong
  | notEmpty
  | tooManyLinks
  deriving DecidableEq, Repr

def SystemError.text : SystemError → Text
  | notFound => "No such file or directory"
  | interrupted => "Interrupted system call"
  | inputOutput => "Input/output error"
  | busy => "Device or resource busy"
  | alreadyExists => "File exists"
  | notDirectory => "Not a directory"
  | isDirectory => "Is a directory"
  | invalidArgument => "Invalid argument"
  | noSpace => "No space left on device"
  | nameTooLong => "File name too long"
  | notEmpty => "Directory not empty"
  | tooManyLinks => "Too many levels of symbolic links"

end ForwardIndex
