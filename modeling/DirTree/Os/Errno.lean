/-!
# Error numbers

A failed system call reports an error number. The calls of this library fail with a dozen of
them; any number at all may be turned into an I/O error, so the messages cover every number the
C library names, and the rest read "Unknown error N":

    Errno.code .noEntry = 2
    describe 2 = "No such file or directory"
    describe 41 = "Unknown error 41"
-/

namespace DirTree

/-- The error numbers the filesystem calls of this library fail with. `invalid` is the removal
of `.`, `busy` that of `/` or of a mount point, and `textBusy` a write to the running program. -/
inductive Errno where
  | noEntry
  | notDir
  | isDir
  | alreadyExists
  | invalid
  | notEmpty
  | loop
  | nameTooLong
  | accessDenied
  | busy
  | noDeviceOrAddress
  | addressInUse
  | notPermitted
  | noSpace
  | textBusy
deriving DecidableEq, Repr, Inhabited

namespace Errno

/-- The number the OS uses for an error. -/
def code : Errno → Int
  | .noEntry => 2
  | .notDir => 20
  | .isDir => 21
  | .alreadyExists => 17
  | .invalid => 22
  | .notEmpty => 39
  | .loop => 40
  | .nameTooLong => 36
  | .accessDenied => 13
  | .busy => 16
  | .noDeviceOrAddress => 6
  | .addressInUse => 98
  | .notPermitted => 1
  | .noSpace => 28
  | .textBusy => 26

end Errno

/-! ## Algorithm -/

/-- The C library's messages for the error numbers 0 to 133, in order. -/
def errorMessages : List String := [
  "Success", "Operation not permitted", "No such file or directory", "No such process",
  "Interrupted system call", "Input/output error", "No such device or address",
  "Argument list too long", "Exec format error", "Bad file descriptor", "No child processes",
  "Resource temporarily unavailable", "Cannot allocate memory", "Permission denied",
  "Bad address", "Block device required", "Device or resource busy", "File exists",
  "Invalid cross-device link", "No such device", "Not a directory", "Is a directory",
  "Invalid argument", "Too many open files in system", "Too many open files",
  "Inappropriate ioctl for device", "Text file busy", "File too large",
  "No space left on device", "Illegal seek", "Read-only file system", "Too many links",
  "Broken pipe", "Numerical argument out of domain", "Numerical result out of range",
  "Resource deadlock avoided", "File name too long", "No locks available",
  "Function not implemented", "Directory not empty", "Too many levels of symbolic links",
  "Unknown error 41", "No message of desired type", "Identifier removed",
  "Channel number out of range", "Level 2 not synchronized", "Level 3 halted",
  "Level 3 reset", "Link number out of range", "Protocol driver not attached",
  "No CSI structure available", "Level 2 halted", "Invalid exchange",
  "Invalid request descriptor", "Exchange full", "No anode", "Invalid request code",
  "Invalid slot", "Unknown error 58", "Bad font file format", "Device not a stream",
  "No data available", "Timer expired", "Out of streams resources",
  "Machine is not on the network", "Package not installed", "Object is remote",
  "Link has been severed", "Advertise error", "Srmount error", "Communication error on send",
  "Protocol error", "Multihop attempted", "RFS specific error", "Bad message",
  "Value too large for defined data type", "Name not unique on network",
  "File descriptor in bad state", "Remote address changed",
  "Can not access a needed shared library", "Accessing a corrupted shared library",
  ".lib section in a.out corrupted", "Attempting to link in too many shared libraries",
  "Cannot exec a shared library directly", "Invalid or incomplete multibyte or wide character",
  "Interrupted system call should be restarted", "Streams pipe error", "Too many users",
  "Socket operation on non-socket", "Destination address required", "Message too long",
  "Protocol wrong type for socket", "Protocol not available", "Protocol not supported",
  "Socket type not supported", "Operation not supported", "Protocol family not supported",
  "Address family not supported by protocol", "Address already in use",
  "Cannot assign requested address", "Network is down", "Network is unreachable",
  "Network dropped connection on reset", "Software caused connection abort",
  "Connection reset by peer", "No buffer space available",
  "Transport endpoint is already connected", "Transport endpoint is not connected",
  "Cannot send after transport endpoint shutdown", "Too many references: cannot splice",
  "Connection timed out", "Connection refused", "Host is down", "No route to host",
  "Operation already in progress", "Operation now in progress", "Stale file handle",
  "Structure needs cleaning", "Not a XENIX named type file", "No XENIX semaphores available",
  "Is a named type file", "Remote I/O error", "Disk quota exceeded", "No medium found",
  "Wrong medium type", "Operation canceled", "Required key not available", "Key has expired",
  "Key has been revoked", "Key was rejected by service", "Owner died",
  "State not recoverable", "Operation not possible due to RF-kill",
  "Memory page has hardware error"]

def describe (code : Int) : String :=
  if code < 0 then "Unknown error " ++ toString code
  else (errorMessages[code.toNat]?).getD ("Unknown error " ++ toString code)

/-! ## Lemmas -/

example : describe 2 = "No such file or directory" := by decide
example : describe 133 = "Memory page has hardware error" := by decide
example : describe 134 = "Unknown error 134" := by decide
example : describe (-1) = "Unknown error -1" := by decide

end DirTree
