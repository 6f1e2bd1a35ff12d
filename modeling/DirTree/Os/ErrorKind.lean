import DirTree.Os.Errno

/-!
# Kinds of I/O errors

Every I/O error falls into a kind. An error number decides its kind; an error made from a kind
alone reads as the kind's short description. Each kind is printed under its own name:

    ErrorKind.ofCode 2 = .notFound          (ErrorKind.notFound).name = "NotFound"
    ErrorKind.ofCode 0 = .uncategorized     (ErrorKind.notFound).description = "entity not found"
-/

namespace DirTree

/-- The kind of an I/O error. -/
inductive ErrorKind where
  | notFound
  | permissionDenied
  | connectionRefused
  | connectionReset
  | hostUnreachable
  | networkUnreachable
  | connectionAborted
  | notConnected
  | addrInUse
  | addrNotAvailable
  | networkDown
  | brokenPipe
  | alreadyExists
  | wouldBlock
  | notADirectory
  | isADirectory
  | directoryNotEmpty
  | readOnlyFilesystem
  | filesystemLoop
  | staleNetworkFileHandle
  | invalidInput
  | invalidData
  | timedOut
  | writeZero
  | storageFull
  | notSeekable
  | quotaExceeded
  | fileTooLarge
  | resourceBusy
  | executableFileBusy
  | deadlock
  | crossesDevices
  | tooManyLinks
  | invalidFilename
  | argumentListTooLong
  | interrupted
  | unsupported
  | unexpectedEof
  | outOfMemory
  | inProgress
  | inputOutputError
  | tooManyOpenFiles
  | other
  | uncategorized
deriving DecidableEq, Repr, Inhabited

namespace ErrorKind

def name : ErrorKind → String
  | .notFound => "NotFound"
  | .permissionDenied => "PermissionDenied"
  | .connectionRefused => "ConnectionRefused"
  | .connectionReset => "ConnectionReset"
  | .hostUnreachable => "HostUnreachable"
  | .networkUnreachable => "NetworkUnreachable"
  | .connectionAborted => "ConnectionAborted"
  | .notConnected => "NotConnected"
  | .addrInUse => "AddrInUse"
  | .addrNotAvailable => "AddrNotAvailable"
  | .networkDown => "NetworkDown"
  | .brokenPipe => "BrokenPipe"
  | .alreadyExists => "AlreadyExists"
  | .wouldBlock => "WouldBlock"
  | .notADirectory => "NotADirectory"
  | .isADirectory => "IsADirectory"
  | .directoryNotEmpty => "DirectoryNotEmpty"
  | .readOnlyFilesystem => "ReadOnlyFilesystem"
  | .filesystemLoop => "FilesystemLoop"
  | .staleNetworkFileHandle => "StaleNetworkFileHandle"
  | .invalidInput => "InvalidInput"
  | .invalidData => "InvalidData"
  | .timedOut => "TimedOut"
  | .writeZero => "WriteZero"
  | .storageFull => "StorageFull"
  | .notSeekable => "NotSeekable"
  | .quotaExceeded => "QuotaExceeded"
  | .fileTooLarge => "FileTooLarge"
  | .resourceBusy => "ResourceBusy"
  | .executableFileBusy => "ExecutableFileBusy"
  | .deadlock => "Deadlock"
  | .crossesDevices => "CrossesDevices"
  | .tooManyLinks => "TooManyLinks"
  | .invalidFilename => "InvalidFilename"
  | .argumentListTooLong => "ArgumentListTooLong"
  | .interrupted => "Interrupted"
  | .unsupported => "Unsupported"
  | .unexpectedEof => "UnexpectedEof"
  | .outOfMemory => "OutOfMemory"
  | .inProgress => "InProgress"
  | .inputOutputError => "InputOutputError"
  | .tooManyOpenFiles => "TooManyOpenFiles"
  | .other => "Other"
  | .uncategorized => "Uncategorized"

/-- The short description an error made from a kind alone reads as. -/
def description : ErrorKind → String
  | .notFound => "entity not found"
  | .permissionDenied => "permission denied"
  | .connectionRefused => "connection refused"
  | .connectionReset => "connection reset"
  | .hostUnreachable => "host unreachable"
  | .networkUnreachable => "network unreachable"
  | .connectionAborted => "connection aborted"
  | .notConnected => "not connected"
  | .addrInUse => "address in use"
  | .addrNotAvailable => "address not available"
  | .networkDown => "network down"
  | .brokenPipe => "broken pipe"
  | .alreadyExists => "entity already exists"
  | .wouldBlock => "operation would block"
  | .notADirectory => "not a directory"
  | .isADirectory => "is a directory"
  | .directoryNotEmpty => "directory not empty"
  | .readOnlyFilesystem => "read-only filesystem or storage medium"
  | .filesystemLoop => "filesystem loop or indirection limit (e.g. symlink loop)"
  | .staleNetworkFileHandle => "stale network file handle"
  | .invalidInput => "invalid input parameter"
  | .invalidData => "invalid data"
  | .timedOut => "timed out"
  | .writeZero => "write zero"
  | .storageFull => "no storage space"
  | .notSeekable => "seek on unseekable file"
  | .quotaExceeded => "quota exceeded"
  | .fileTooLarge => "file too large"
  | .resourceBusy => "resource busy"
  | .executableFileBusy => "executable file busy"
  | .deadlock => "deadlock"
  | .crossesDevices => "cross-device link or rename"
  | .tooManyLinks => "too many links"
  | .invalidFilename => "invalid filename"
  | .argumentListTooLong => "argument list too long"
  | .interrupted => "operation interrupted"
  | .unsupported => "unsupported"
  | .unexpectedEof => "unexpected end of file"
  | .outOfMemory => "out of memory"
  | .inProgress => "in progress"
  | .inputOutputError => "I/O error"
  | .tooManyOpenFiles => "too many open files"
  | .other => "other error"
  | .uncategorized => "uncategorized error"

/-! ## Algorithm -/

/-- The kind of an error number. -/
def ofCode (code : Int) : ErrorKind :=
  match code with
  | 1 | 13 => .permissionDenied
  | 2 => .notFound
  | 4 => .interrupted
  | 5 => .inputOutputError
  | 7 => .argumentListTooLong
  | 11 => .wouldBlock
  | 12 => .outOfMemory
  | 16 => .resourceBusy
  | 17 => .alreadyExists
  | 18 => .crossesDevices
  | 20 => .notADirectory
  | 21 => .isADirectory
  | 22 => .invalidInput
  | 23 | 24 => .tooManyOpenFiles
  | 26 => .executableFileBusy
  | 27 => .fileTooLarge
  | 28 => .storageFull
  | 29 => .notSeekable
  | 30 => .readOnlyFilesystem
  | 31 => .tooManyLinks
  | 32 => .brokenPipe
  | 35 => .deadlock
  | 36 => .invalidFilename
  | 38 | 95 => .unsupported
  | 39 => .directoryNotEmpty
  | 40 => .filesystemLoop
  | 98 => .addrInUse
  | 99 => .addrNotAvailable
  | 100 => .networkDown
  | 101 => .networkUnreachable
  | 103 => .connectionAborted
  | 104 => .connectionReset
  | 107 => .notConnected
  | 110 => .timedOut
  | 111 => .connectionRefused
  | 113 => .hostUnreachable
  | 115 => .inProgress
  | 116 => .staleNetworkFileHandle
  | 122 => .quotaExceeded
  | _ => .uncategorized

/-- The kinds an error can be built from by name. -/
def buildable : List ErrorKind :=
  [.notFound, .permissionDenied, .alreadyExists, .notADirectory, .isADirectory,
    .directoryNotEmpty, .invalidInput, .interrupted, .other, .unsupported, .timedOut,
    .unexpectedEof]

def ofName? (s : String) : Option ErrorKind := buildable.find? (·.name == s)

/-! ## Lemmas -/

example : ofCode 36 = .invalidFilename := by decide
example : ofCode 0 = .uncategorized := by decide
example : ofName? "NotFound" = some .notFound := by decide

end ErrorKind

end DirTree
