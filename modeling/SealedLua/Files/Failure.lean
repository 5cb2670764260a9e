import SealedLua.Text.Quoted

/-!
# Failures of files

A failure of the operating system has a number, a kind and a text.  Besides
those, a path that holds a zero byte is refused before the system sees it.
-/

namespace SealedLua

/-- The kinds and texts of the system's failures, by number. -/
def systemFailures : List (Nat × String × String) :=
  [(1, "PermissionDenied", "Operation not permitted"), (2, "NotFound", "No such file or directory"),
    (3, "Uncategorized", "No such process"), (4, "Interrupted", "Interrupted system call"),
    (5, "Uncategorized", "Input/output error"), (6, "Uncategorized", "No such device or address"),
    (7, "ArgumentListTooLong", "Argument list too long"), (8, "Uncategorized", "Exec format error"),
    (9, "Uncategorized", "Bad file descriptor"), (10, "Uncategorized", "No child processes"),
    (11, "WouldBlock", "Resource temporarily unavailable"),
    (12, "OutOfMemory", "Cannot allocate memory"),
    (13, "PermissionDenied", "Permission denied"), (14, "Uncategorized", "Bad address"),
    (15, "Uncategorized", "Block device required"), (16, "ResourceBusy", "Device or resource busy"),
    (17, "AlreadyExists", "File exists"), (18, "CrossesDevices", "Invalid cross-device link"),
    (19, "Uncategorized", "No such device"), (20, "NotADirectory", "Not a directory"),
    (21, "IsADirectory", "Is a directory"), (22, "InvalidInput", "Invalid argument"),
    (23, "Uncategorized", "Too many open files in system"),
    (24, "Uncategorized", "Too many open files"),
    (25, "Uncategorized", "Inappropriate ioctl for device"),
    (26, "ExecutableFileBusy", "Text file busy"),
    (27, "FileTooLarge", "File too large"), (28, "StorageFull", "No space left on device"),
    (29, "NotSeekable", "Illegal seek"), (30, "ReadOnlyFilesystem", "Read-only file system"),
    (31, "TooManyLinks", "Too many links"), (32, "BrokenPipe", "Broken pipe"),
    (33, "Uncategorized", "Numerical argument out of domain"),
    (34, "Uncategorized", "Numerical result out of range"),
    (35, "Deadlock", "Resource deadlock avoided"), (36, "InvalidFilename", "File name too long"),
    (37, "Uncategorized", "No locks available"), (38, "Unsupported", "Function not implemented"),
    (39, "DirectoryNotEmpty", "Directory not empty"),
    (40, "FilesystemLoop", "Too many levels of symbolic links"),
    (61, "Uncategorized", "No data available"), (62, "Uncategorized", "Timer expired"),
    (71, "Uncategorized", "Protocol error"), (74, "Uncategorized", "Bad message"),
    (75, "Uncategorized", "Value too large for defined data type"),
    (84, "Uncategorized", "Invalid or incomplete multibyte or wide character"),
    (95, "Unsupported", "Operation not supported"), (98, "AddrInUse", "Address already in use"),
    (99, "AddrNotAvailable", "Cannot assign requested address"),
    (100, "NetworkDown", "Network is down"),
    (101, "NetworkUnreachable", "Network is unreachable"),
    (103, "ConnectionAborted", "Software caused connection abort"),
    (104, "ConnectionReset", "Connection reset by peer"),
    (107, "NotConnected", "Transport endpoint is not connected"),
    (110, "TimedOut", "Connection timed out"), (111, "ConnectionRefused", "Connection refused"),
    (113, "HostUnreachable", "No route to host"), (115, "InProgress", "Operation now in progress"),
    (116, "StaleNetworkFileHandle", "Stale file handle"),
    (122, "QuotaExceeded", "Disk quota exceeded"), (125, "Uncategorized", "Operation canceled")]

inductive FileFailure where
  | system (code : Nat)
  | zeroByteInPath
deriving DecidableEq, Repr

namespace FileFailure

def notFound : FileFailure := .system 2
def alreadyExists : FileFailure := .system 17
def notADirectory : FileFailure := .system 20
def isADirectory : FileFailure := .system 21
def invalidArgument : FileFailure := .system 22
def nameTooLong : FileFailure := .system 36
def notEmpty : FileFailure := .system 39

def zeroByteText : String := "file name contained an unexpected NUL byte"

def describe (code : Nat) : String × String :=
  ((systemFailures.find? (·.1 == code)).map (·.2)).getD
    ("Uncategorized", "Unknown error " ++ toString code)

/-- A failure in a sentence. -/
def text : FileFailure → String
  | .system code => (describe code).2 ++ " (os error " ++ toString code ++ ")"
  | .zeroByteInPath => zeroByteText

def detail : FileFailure → String
  | .system code =>
    let (kind, text) := describe code
    "Os \x7b code: " ++ toString code ++ ", kind: " ++ kind ++ ", message: " ++
      Quoted.text text ++ " \x7d"
  | .zeroByteInPath => "Error \x7b kind: InvalidInput, message: " ++
    Quoted.text zeroByteText ++ " \x7d"

end FileFailure
end SealedLua
