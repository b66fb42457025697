import Pipework.Status
import Pipework.Template.Token
import Pipework.Time
import Pipework.Value.Basic

/-!
# What can go wrong

Each way to fail is a cause with the things it is about; its wording is one function. A `BuildError` is
raised while a command or a graph is put together, before anything is started. A `Failure` is any error
of this library; a build error in it is worded already, because what it is about may change later.
-/

/-!
## The errors of the operating system

Every error that a system call can end with: its number, its symbol and its standard text. Some numbers
go by a second symbol.
-/

namespace Pipework.SystemError

/-- The errors by number. -/
def table : List (Int × String × String) :=
  [(1, "EPERM", "Operation not permitted"), (2, "ENOENT", "No such file or directory"),
   (3, "ESRCH", "No such process"), (4, "EINTR", "Interrupted system call"),
   (5, "EIO", "Input/output error"), (6, "ENXIO", "No such device or address"),
   (7, "E2BIG", "Argument list too long"), (8, "ENOEXEC", "Exec format error"),
   (9, "EBADF", "Bad file descriptor"), (10, "ECHILD", "No child processes"),
   (11, "EAGAIN", "Resource temporarily unavailable"), (12, "ENOMEM", "Cannot allocate memory"),
   (13, "EACCES", "Permission denied"), (14, "EFAULT", "Bad address"),
   (15, "ENOTBLK", "Block device required"), (16, "EBUSY", "Device or resource busy"),
   (17, "EEXIST", "File exists"), (18, "EXDEV", "Invalid cross-device link"),
   (19, "ENODEV", "No such device"), (20, "ENOTDIR", "Not a directory"), (21, "EISDIR", "Is a directory"),
   (22, "EINVAL", "Invalid argument"), (23, "ENFILE", "Too many open files in system"),
   (24, "EMFILE", "Too many open files"), (25, "ENOTTY", "Inappropriate ioctl for device"),
   (26, "ETXTBSY", "Text file busy"), (27, "EFBIG", "File too large"),
   (28, "ENOSPC", "No space left on device"), (29, "ESPIPE", "Illegal seek"),
   (30, "EROFS", "Read-only file system"), (31, "EMLINK", "Too many links"), (32, "EPIPE", "Broken pipe"),
   (33, "EDOM", "Numerical argument out of domain"), (34, "ERANGE", "Numerical result out of range"),
   (35, "EDEADLOCK", "Resource deadlock avoided"), (36, "ENAMETOOLONG", "File name too long"),
   (37, "ENOLCK", "No locks available"), (38, "ENOSYS", "Function not implemented"),
   (39, "ENOTEMPTY", "Directory not empty"), (40, "ELOOP", "Too many levels of symbolic links"),
   (42, "ENOMSG", "No message of desired type"), (43, "EIDRM", "Identifier removed"),
   (44, "ECHRNG", "Channel number out of range"), (45, "EL2NSYNC", "Level 2 not synchronized"),
   (46, "EL3HLT", "Level 3 halted"), (47, "EL3RST", "Level 3 reset"),
   (48, "ELNRNG", "Link number out of range"), (49, "EUNATCH", "Protocol driver not attached"),
   (50, "ENOCSI", "No CSI structure available"), (51, "EL2HLT", "Level 2 halted"),
   (52, "EBADE", "Invalid exchange"), (53, "EBADR", "Invalid request descriptor"),
   (54, "EXFULL", "Exchange full"), (55, "ENOANO", "No anode"), (56, "EBADRQC", "Invalid request code"),
   (57, "EBADSLT", "Invalid slot"), (59, "EBFONT", "Bad font file format"),
   (60, "ENOSTR", "Device not a stream"), (61, "ENODATA", "No data available"),
   (62, "ETIME", "Timer expired"), (63, "ENOSR", "Out of streams resources"),
   (64, "ENONET", "Machine is not on the network"), (65, "ENOPKG", "Package not installed"),
   (66, "EREMOTE", "Object is remote"), (67, "ENOLINK", "Link has been severed"),
   (68, "EADV", "Advertise error"), (69, "ESRMNT", "Srmount error"),
   (70, "ECOMM", "Communication error on send"), (71, "EPROTO", "Protocol error"),
   (72, "EMULTIHOP", "Multihop attempted"), (73, "EDOTDOT", "RFS specific error"),
   (74, "EBADMSG", "Bad message"), (75, "EOVERFLOW", "Value too large for defined data type"),
   (76, "ENOTUNIQ", "Name not unique on network"), (77, "EBADFD", "File descriptor in bad state"),
   (78, "EREMCHG", "Remote address changed"), (79, "ELIBACC", "Can not access a needed shared library"),
   (80, "ELIBBAD", "Accessing a corrupted shared library"),
   (81, "ELIBSCN", ".lib section in a.out corrupted"),
   (82, "ELIBMAX", "Attempting to link in too many shared libraries"),
   (83, "ELIBEXEC", "Cannot exec a shared library directly"),
   (84, "EILSEQ", "Invalid or incomplete multibyte or wide character"),
   (85, "ERESTART", "Interrupted system call should be restarted"), (86, "ESTRPIPE", "Streams pipe error"),
   (87, "EUSERS", "Too many users"), (88, "ENOTSOCK", "Socket operation on non-socket"),
   (89, "EDESTADDRREQ", "Destination address required"), (90, "EMSGSIZE", "Message too long"),
   (91, "EPROTOTYPE", "Protocol wrong type for socket"), (92, "ENOPROTOOPT", "Protocol not available"),
   (93, "EPROTONOSUPPORT", "Protocol not supported"), (94, "ESOCKTNOSUPPORT", "Socket type not supported"),
   (95, "ENOTSUP", "Operation not supported"), (96, "EPFNOSUPPORT", "Protocol family not supported"),
   (97, "EAFNOSUPPORT", "Address family not supported by protocol"),
   (98, "EADDRINUSE", "Address already in use"), (99, "EADDRNOTAVAIL", "Cannot assign requested address"),
   (100, "ENETDOWN", "Network is down"), (101, "ENETUNREACH", "Network is unreachable"),
   (102, "ENETRESET", "Network dropped connection on reset"),
   (103, "ECONNABORTED", "Software caused connection abort"),
   (104, "ECONNRESET", "Connection reset by peer"), (105, "ENOBUFS", "No buffer space available"),
   (106, "EISCONN", "Transport endpoint is already connected"),
   (107, "ENOTCONN", "Transport endpoint is not connected"),
   (108, "ESHUTDOWN", "Cannot send after transport endpoint shutdown"),
   (109, "ETOOMANYREFS", "Too many references: cannot splice"), (110, "ETIMEDOUT", "Connection timed out"),
   (111, "ECONNREFUSED", "Connection refused"), (112, "EHOSTDOWN", "Host is down"),
   (113, "EHOSTUNREACH", "No route to host"), (114, "EALREADY", "Operation already in progress"),
   (115, "EINPROGRESS", "Operation now in progress"), (116, "ESTALE", "Stale file handle"),
   (117, "EUCLEAN", "Structure needs cleaning"), (118, "ENOTNAM", "Not a XENIX named type file"),
   (119, "ENAVAIL", "No XENIX semaphores available"), (120, "EISNAM", "Is a named type file"),
   (121, "EREMOTEIO", "Remote I/O error"), (122, "EDQUOT", "Disk quota exceeded"),
   (123, "ENOMEDIUM", "No medium found"), (124, "EMEDIUMTYPE", "Wrong medium type"),
   (125, "ECANCELED", "Operation canceled"), (126, "ENOKEY", "Required key not available"),
   (127, "EKEYEXPIRED", "Key has expired"), (128, "EKEYREVOKED", "Key has been revoked"),
   (129, "EKEYREJECTED", "Key was rejected by service"), (130, "EOWNERDEAD", "Owner died"),
   (131, "ENOTRECOVERABLE", "State not recoverable"),
   (132, "ERFKILL", "Operation not possible due to RF-kill")]

/-- The second symbols, each with the one that the table has. -/
def synonyms : List (String × String) :=
  [("EDEADLK", "EDEADLOCK"), ("EOPNOTSUPP", "ENOTSUP"), ("EWOULDBLOCK", "EAGAIN")]

end Pipework.SystemError

/-! ## Causes and their wording -/

namespace Pipework

/-- A redirect or a pipe where the stream is taken already. -/
inductive Conflict where
  /-- The stdout of the left graph is redirected. -/
  | pipeFrom (left : Graph)
  /-- The stdin of the right graph is redirected. -/
  | pipeInto (right : Graph)
  /-- A second redirect of one stream. -/
  | redirected (stream : Stream) (graph : Graph)
  /-- The graph at the other end has its own stream redirected. -/
  | connected (stream : Stream) (other : Graph) (taken : Stream)
  /-- A pipeline's end is given as a stage and by name. -/
  | twice (stream : Stream) (place : String)

/-- An error in building a command or a graph. -/
inductive BuildError where
  | template (e : Template.SyntaxError)
  | conflict (c : Conflict)
  /-- A mapping is interpolated. -/
  | mapping (typeName : Text)
  /-- A command is made from one text instead of a sequence of arguments. -/
  | textAsArguments
  | noProgram
  | emptyProgram
  | emptyTemplate (template : Text)
  | noArguments (template : Text)
  | unknownStream (name : Value)
  | appendToInput
  /-- A truth value is given as a redirect. -/
  | truthValue (stream : Stream) (value : Bool)
  | immutableOutput (stream : Stream) (typeName : Text)
  | noTarget (stream : Stream) (typeName : Text)
  | notAGraph (typeName : Text)
  /-- A node stands twice in one graph. -/
  | repeatedNode (node : Graph)
  | noMembers
  | noStages
  | repeatedEndpoint (stream : Stream)
  /-- A node of no known kind cannot carry redirects. -/
  | rigidNode (kind : Text)
  /-- A value stands where a node should. -/
  | noNode (typeName : Text)
  /-- A leaf holds a value that is no command. -/
  | noCommand (typeName : Text)
  | unknownNode (kind : Text)
  | unknownTarget (target : Target)

/-- An error of the operating system. -/
inductive SystemError where
  /-- An error with its number, its standard text, and the name it is about. -/
  | coded (number : Int) (reason : Text) (name : Option Text)
  /-- An error that is only a message. -/
  | plain (message : Text)
deriving DecidableEq, Repr

namespace SystemError

/-- The error of a symbol. -/
def ofSymbol (symbol : String) (name : Option Text) : SystemError :=
  let symbol := (synonyms.lookup symbol).getD symbol
  match table.find? fun (_, s, _) => s == symbol with
  | some (number, _, reason) => coded number reason name
  | none => plain symbol

/-- The symbol of an error. -/
def symbol : SystemError → Text
  | coded number .. =>
    match table.find? fun (n, _, _) => n == number with
    | some (_, s, _) => s
    | none => Text.ofInt number
  | plain _ => []

/-- A write that nobody can read any more. -/
def brokenPipe : SystemError := ofSymbol "EPIPE" none

/-- A descriptor that is not open. -/
def badDescriptor : SystemError := ofSymbol "EBADF" none

/-- Whether nobody can read what was written. -/
def isBrokenPipe : SystemError → Bool
  | coded number .. => number == 32 || number == 108
  | plain _ => false

/-- Whether a name does not exist. -/
def isNotFound : SystemError → Bool
  | coded number .. => number == 2
  | plain _ => false

/-- Whether access was refused. -/
def isRefused : SystemError → Bool
  | coded number .. => number == 13 || number == 1
  | plain _ => false

/-- The text of an error that has a number. -/
def reason? : SystemError → Option Text
  | coded _ reason _ => some reason
  | plain _ => none

/-- A system error in words. -/
def message : SystemError → Text
  | coded number reason name =>
    "[Errno " ++ Text.ofInt number ++ "] " ++ reason
      ++ (match name with
        | some n => ": " ++ n.quoted
        | none => [] : Text)
  | plain m => m

end SystemError

/-- Why a command could not be started. -/
inductive SpawnReason where
  | notFound
  | permissionDenied
  | systemError
  | other (word : Text)
deriving DecidableEq, Repr

namespace SpawnReason

/-- The word for a reason. -/
def word : SpawnReason → Text
  | notFound => "not_found"
  | permissionDenied => "permission_denied"
  | systemError => "os_error"
  | other w => w

/-- The reason of a word. -/
def ofWord (w : Text) : SpawnReason :=
  ([notFound, permissionDenied, systemError].find? (·.word == w)).getD (other w)

/-- The reason that a system error amounts to. -/
def ofError (e : SystemError) : SpawnReason :=
  if e.isNotFound then notFound else if e.isRefused then permissionDenied else systemError

end SpawnReason

/-- One command that could not be started. -/
structure SpawnFailure where
  job : Job
  reason : SpawnReason
  error : SystemError
deriving DecidableEq, Repr

/-- A failed start in words: the error's standard text where it has one that is not empty. -/
def SpawnFailure.text (f : SpawnFailure) : Text :=
  let detail := match f.error.reason? with
    | some reason => if reason.isEmpty then f.error.message else reason
    | none => f.error.message
  f.job.shown ++ ": " ++ f.reason.word ++ " (" ++ detail ++ ")"

/-- A call that cannot be carried out as it is made. -/
inductive Misuse where
  /-- An argument holds a zero byte. -/
  | embeddedNull
  /-- The name of a coding holds a zero character. -/
  | nullInName
  | writeToClosed
  | flushOfClosed
  | readOfClosed
  /-- The handle has no end of this stream. -/
  | noEndpoint (stream : Stream)
  /-- A mode that there is none of, as it is shown. -/
  | invalidMode (shown : Text)
  | zeroStep
  | zeroStride
  | noDescriptor
  /-- A text that writes no number. -/
  | notANumber (text : Text)
deriving DecidableEq, Repr

/-- A misuse in words. -/
def Misuse.message : Misuse → Text
  | embeddedNull => "embedded null byte"
  | nullInName => "embedded null character"
  | writeToClosed => "write to closed file"
  | flushOfClosed => "flush of closed file"
  | readOfClosed => "read of closed file"
  | noEndpoint stream =>
    "Handle has no " ++ stream.text ++ " endpoint (spawn with " ++ stream.text ++ "=PIPE)"
  | invalidMode shown => "Invalid mode " ++ shown
  | zeroStep => "slice step cannot be zero"
  | zeroStride => "range() arg 3 must not be zero"
  | noDescriptor => "no fd"
  | notANumber text => "could not convert string to float: " ++ text.quoted

/-- Any error of this library, or of the code it calls. -/
inductive Failure where
  /-- A build error and its words. -/
  | build (e : BuildError) (wording : Text)
  /-- Some commands of a graph could not be started. -/
  | spawn (failures : List SpawnFailure)
  /-- Some commands of a graph failed. -/
  | processes (statuses : List ProcessStatus)
  | system (e : SystemError)
  /-- A content is not well formed in its coding. -/
  | decoding
  /-- A text has a character that its coding lacks. -/
  | encoding
  | unknownCoding (name : Text)
  /-- A process did not end in the time given to it. -/
  | timeout (args : List Text) (limit : Time)
  | misuse (m : Misuse)
  /-- A stream that lacks an operation. -/
  | unsupported (operation : Text)
  /-- A value that lacks an operation. -/
  | lacking (typeName operation : Text)
  /-- An assignment to an immutable command. -/
  | immutable (typeName : Text)
  /-- An assignment to a field of an immutable node or target. -/
  | frozenField (name : Text)
  /-- An attempt to take a field away from an immutable node or target. -/
  | lastingField (name : Text)
  | wrongType
  /-- A value of the wrong type, in words of its own. -/
  | mistyped (wording : Text)
  | indexOutOfRange
  /-- A mapping has no such key. -/
  | missingKey
  /-- An error of the caller's own code, by the name of its kind and its message. -/
  | caller (kind message : Text)
  /-- Everything waits, and nothing is left that could go on. -/
  | deadlock

namespace Failure

/-- The statuses of failed commands. -/
def failedOf (statuses : List ProcessStatus) : List ProcessStatus := statuses.filter (·.failed)

/-- A failure in words. A failure of a coding has none of its own. -/
def message : Failure → Text
  | build _ wording => wording
  | spawn failures =>
    "failed to spawn " ++ Text.ofNat failures.length ++ " process(es): "
      ++ Text.join "; " (failures.map SpawnFailure.text)
  | processes statuses =>
    let failed := failedOf statuses
    Text.ofNat failed.length ++ " of " ++ Text.ofNat statuses.length ++ " process(es) failed: "
      ++ Text.join ", " (failed.map fun s => s.job.shown ++ " (" ++ s.description ++ ")")
  | system e => e.message
  | decoding => []
  | encoding => []
  | unknownCoding name => "unknown encoding: " ++ name
  | timeout args limit =>
    "Command '[" ++ Text.join ", " (args.map Text.quoted) ++ "]' timed out after "
      ++ Time.secondsText limit ++ " seconds"
  | misuse m => m.message
  | unsupported operation => operation
  | lacking typeName operation =>
    Text.quoted typeName ++ " object has no attribute " ++ Text.quoted operation
  | immutable typeName => typeName ++ " is immutable"
  | frozenField name => "cannot assign to field " ++ name.quoted
  | lastingField name => "cannot delete field " ++ name.quoted
  | wrongType => "wrong type"
  | mistyped wording => wording
  | indexOutOfRange => "index out of range"
  | missingKey => "missing key"
  | caller _ message => message
  | deadlock => "nothing left to run"

/-- Whether the words of a failure count. They do not where a value lacks what it is asked for or a
coding lacks a character: the cause says it all. -/
def isWorded : Failure → Bool
  | lacking .. | wrongType | mistyped _ | indexOutOfRange | missingKey | decoding | encoding => false
  | _ => true

/-- Whether nobody can read what was written. -/
def isBrokenPipe : Failure → Bool
  | system e => e.isBrokenPipe
  | _ => false

end Failure

/-- The coding of a name, or why there is none. A name is made of characters, and none of them is NUL. -/
def Coding.named (name : Text) : Except Failure Coding :=
  if name.any (·.toChar? = none) then .error .encoding
  else if name.contains (.char '\x00') then .error (.misuse .nullInName)
  else match Coding.ofName? name with
    | some coding => .ok coding
    | none => .error (.unknownCoding name)

end Pipework
