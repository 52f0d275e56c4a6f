/-
# What can go wrong, and how it is said

Every failure of the library is a value that names its cause; the wording of
all of them is in this module and nowhere else. Bytes that break a format are
a `Corruption`, a request that cannot be served is a `Misuse`, a failed call
of the operating system is an `IoFailure`, a program file that cannot be read
is a `BinaryFault`; `Error` joins them with the failures that only the kernel
can report, and with the sum that is too large for its type, which no caller
gets to see.

Key definitions: `Corruption`, `Misuse`, `IoFailure`, `BinaryFault`, `Error`,
`Error.message`, `Error.exitCode`.
Key theorems: `bind_eq_ok_iff`, `bind_eq_error_iff`, `liftM_eq_ok_iff`,
`liftM_eq_error_iff`.
-/
namespace Profiler

/-- How bytes fail to follow the format they should have. -/
inductive Corruption where
  /-- More bytes were asked for than the buffer holds from this position. -/
  | shortRead (length position size : Nat)
  /-- An array of words reaches beyond the buffer. -/
  | longArray (count position : Nat)
  /-- No NUL follows this position. -/
  | unterminated (position : Nat)
  /-- An attr needs its first two words. -/
  | shortAttr (size : Nat)
  /-- The length in a record's header is not the length of the record. -/
  | recordLength (type declared available : Nat)
  /-- Bytes are left over after the last field of a record. -/
  | recordTail (count type : Nat)
  /-- A branch stack's byte length does not fit a word. -/
  | branchCount (entries : Nat)
  /-- An id list's byte length does not fit a word. -/
  | eventIdCount (entries : Nat)
  /-- The file does not begin with the magic; both are given as quoted text. -/
  | magic (found expected : String)
  | headerSize (size least : Nat)
  | attrSize (size : Nat)
  /-- A named section ends beyond the file. -/
  | sectionOutside (name : String) (offset size fileSize : Nat)
  | sectionsOverlap (first second : String)
  | attrTable (size entry : Nat)
  | fileAttr (size : Nat)
  | fileTooSmall (path : String) (size : Nat)
  /-- A range that some table of the file points to ends beyond the file. -/
  | rangeOutside (offset size fileSize : Nat)
  | noAttrs
  | idListSize (size : Nat)
  /-- The id list of an attr, counted from 1, meets a fixed section. -/
  | idListOverlap (attr : Nat) (sectionName : String)
  | idListsOverlap (first second : Nat)
  | featureInData (feature : String)
  | featuresOverlap (feature other : String)
  | recordOutside (size position dataSize : Nat)
  /-- A run of split pieces is ended by a record of another type. -/
  | splitRun (type : Nat)
  | buildIdOutside (position : Nat)
  /-- The build id list holds a record of another type. -/
  | buildIdType (name : String)
  | metaPair
  | metaValue
  | dsoType (code : Nat)
  | fileEntryTail (count : Nat) (path : String)
  /-- The producer claims more unread bytes than its ring can hold. -/
  | ringOverrun (available size : Nat)
  | ringRecord (type size position : Nat)
  deriving DecidableEq, Repr

def Corruption.message : Corruption → String
  | shortRead n pos size => s!"read of {n} bytes at offset {pos} exceeds buffer of {size} bytes"
  | longArray n pos => s!"array of {n} u64 values at offset {pos} exceeds buffer"
  | unterminated pos => s!"unterminated string at offset {pos}"
  | shortAttr n => s!"perf_event_attr too short: {n} bytes"
  | recordLength t d a => s!"record type {t} declares {d} bytes but {a} are available"
  | recordTail n t => s!"{n} unexpected trailing bytes in record type {t}"
  | branchCount n => s!"branch stack of {n} entries is too large"
  | eventIdCount n => s!"event id record with {n} entries"
  | magic found expected => s!"bad magic {found}, expected {expected}"
  | headerSize n least => s!"header size {n} is smaller than {least}"
  | attrSize n => s!"invalid attr size {n}"
  | sectionOutside name o n len => s!"{name} section [{o}, +{n}) exceeds file size {len}"
  | sectionsOverlap a b => s!"{a} section overlaps {b} section"
  | attrTable n entry => s!"attr section size {n} is not a multiple of attr size {entry}"
  | fileAttr n => s!"file attr of {n} bytes"
  | fileTooSmall path n => s!"{path} is too small ({n} bytes) to be a record file"
  | rangeOutside o n len => s!"section [{o}, +{n}) exceeds file size {len}"
  | noAttrs => "record file has no event attrs"
  | idListSize n => s!"id section size {n} is not a multiple of 8"
  | idListOverlap i name => s!"id section of attr {i} overlaps the {name} section"
  | idListsOverlap i j => s!"id sections of attrs {i} and {j} overlap"
  | featureInData f => s!"feature {f} overlaps the attr or data section"
  | featuresOverlap f g => s!"feature {f} overlaps feature {g}"
  | recordOutside n pos len =>
    s!"record of {n} bytes at data offset {pos} exceeds data section of {len} bytes"
  | splitRun t => s!"split records are followed by record type {t} instead of split end"
  | buildIdOutside pos => s!"build id record at {pos} exceeds feature"
  | buildIdType name => s!"unexpected {name} record in build id feature"
  | metaPair => "meta info ends inside a key/value pair"
  | metaValue => "meta info value is not terminated"
  | dsoType n => s!"unknown dso type {n}"
  | fileEntryTail n path => s!"{n} trailing bytes in file feature for {path}"
  | ringOverrun n size => s!"ring buffer reports {n} bytes available in a {size} byte buffer"
  | ringRecord t n pos => s!"ring buffer record of type {t} has bad size {n} at offset {pos}"

/-- A failed call of the operating system, by its error number, or a failure
of the bytes that a call gave. -/
inductive IoFailure where
  | os (errno : Nat)
  /-- A loop that was given a number of polls has not ended within them. No
  call fails like this. -/
  | pollsUsedUp
  | notUtf8
  /-- No path has a NUL in it. -/
  | nulInPath
  | stoppedEarly (path : String)
  deriving DecidableEq, Repr

/-- The system's name for an error number. -/
def errnoText : Nat → String
  | 1 => "Operation not permitted"
  | 2 => "No such file or directory"
  | 3 => "No such process"
  | 4 => "Interrupted system call"
  | 5 => "Input/output error"
  | 6 => "No such device or address"
  | 7 => "Argument list too long"
  | 8 => "Exec format error"
  | 9 => "Bad file descriptor"
  | 10 => "No child processes"
  | 11 => "Resource temporarily unavailable"
  | 12 => "Cannot allocate memory"
  | 13 => "Permission denied"
  | 14 => "Bad address"
  | 15 => "Block device required"
  | 16 => "Device or resource busy"
  | 17 => "File exists"
  | 18 => "Invalid cross-device link"
  | 19 => "No such device"
  | 20 => "Not a directory"
  | 21 => "Is a directory"
  | 22 => "Invalid argument"
  | 23 => "Too many open files in system"
  | 24 => "Too many open files"
  | 25 => "Inappropriate ioctl for device"
  | 26 => "Text file busy"
  | 27 => "File too large"
  | 28 => "No space left on device"
  | 29 => "Illegal seek"
  | 30 => "Read-only file system"
  | 31 => "Too many links"
  | 32 => "Broken pipe"
  | 33 => "Numerical argument out of domain"
  | 34 => "Numerical result out of range"
  | 35 => "Resource deadlock avoided"
  | 36 => "File name too long"
  | 37 => "No locks available"
  | 38 => "Function not implemented"
  | 39 => "Directory not empty"
  | 40 => "Too many levels of symbolic links"
  | 61 => "No data available"
  | 62 => "Timer expired"
  | 71 => "Protocol error"
  | 75 => "Value too large for defined data type"
  | 84 => "Invalid or incomplete multibyte or wide character"
  | 95 => "Operation not supported"
  | 105 => "No buffer space available"
  | 110 => "Connection timed out"
  | 114 => "Operation already in progress"
  | 115 => "Operation now in progress"
  | 116 => "Stale file handle"
  | 122 => "Disk quota exceeded"
  | 125 => "Operation canceled"
  | n => s!"Unknown error {n}"

def IoFailure.message : IoFailure → String
  | os n => s!"{errnoText n} (os error {n})"
  | pollsUsedUp => "event loop did not end"
  | notUtf8 => "stream did not contain valid UTF-8"
  | nulInPath => "file name contained an unexpected NUL byte"
  | stoppedEarly path => s!"recording into {path} stopped early"

/-- What is wrong with an ELF file. -/
inductive ElfFault where
  | header
  | unsupportedHeader
  | segmentSize
  | segments
  /-- The count of segments should be in the first section, but there is none. -/
  | segmentCount
  | sectionSize
  | firstSection
  | sections
  | noNames
  | namesIndex
  | namesRange
  | symbols
  /-- A section refers to one that is not there. -/
  | sectionIndex
  /-- The strings of a symbol table are no string table. -/
  | stringsType
  | stringsRange
  | symbolSections
  | relocated
  /-- Relocations apply to a section of relocations. -/
  | relocatedTwice
  | noteSection
  | noteSegment
  | noteAlignment
  | noteLength
  | noteName
  | noteContent
  deriving DecidableEq, Repr

def ElfFault.message : ElfFault → String
  | header => "Invalid ELF header size or alignment"
  | unsupportedHeader => "Unsupported ELF header"
  | segmentSize => "Invalid ELF program header entry size"
  | segments => "Invalid ELF program header size or alignment"
  | segmentCount => "Missing ELF section headers for e_phnum overflow"
  | sectionSize => "Invalid ELF section header entry size"
  | firstSection => "Invalid ELF section header offset or size"
  | sections => "Invalid ELF section header offset/size/alignment"
  | noNames => "Missing ELF e_shstrndx"
  | namesIndex => "Invalid ELF e_shstrndx"
  | namesRange => "Invalid ELF shstrtab size"
  | symbols => "Invalid ELF symbol table data"
  | sectionIndex => "Invalid ELF section index"
  | stringsType => "Invalid ELF string section type"
  | stringsRange => "Invalid ELF string section offset or size"
  | symbolSections => "Invalid ELF symtab_shndx data"
  | relocated => "Invalid ELF sh_info for relocation section"
  | relocatedTwice => "Unsupported ELF sh_info for relocation section"
  | noteSection => "Invalid ELF note section offset or size"
  | noteSegment => "Invalid ELF note segment offset or size"
  | noteAlignment => "Invalid ELF note alignment"
  | noteLength => "ELF note is too short"
  | noteName => "Invalid ELF note namesz"
  | noteContent => "Invalid ELF note descsz"

/-- What is wrong with a COFF file or a PE program, which has the tables of one. -/
inductive CoffFault where
  | header
  /-- The header of the kind with more sections. -/
  | bigHeader
  | sections
  | symbols
  | noStrings
  | programHeaders
  /-- The header is declared shorter than its fixed part. -/
  | optionalHeaderSize
  | optionalHeader
  | directories
  deriving DecidableEq, Repr

def CoffFault.message : CoffFault → String
  | header => "Invalid COFF file header size or alignment"
  | bigHeader => "Invalid COFF bigobj file header size or alignment"
  | sections => "Invalid COFF/PE section headers"
  | symbols => "Invalid COFF symbol table offset or size"
  | noStrings => "Missing COFF string table"
  | programHeaders => "Invalid PE headers offset or size"
  | optionalHeaderSize => "PE optional header size is too small"
  | optionalHeader => "Invalid PE optional header size"
  | directories => "Invalid PE number of RVA and sizes"

/-- What is wrong with a Mach-O file. -/
inductive MachOFault where
  | header
  /-- A load command is shorter than its kind needs. -/
  | commandSize
  | sectionCount
  | symbols
  deriving DecidableEq, Repr

def MachOFault.message : MachOFault → String
  | header => "Invalid Mach-O header size or alignment"
  | commandSize => "Invalid Mach-O command size"
  | sectionCount => "Invalid Mach-O number of sections"
  | symbols => "Invalid Mach-O symbol table offset or size"

/-- What is wrong with an XCOFF file. -/
inductive XcoffFault where
  | header
  | programHeader
  | sections
  | symbols
  | noStrings
  deriving DecidableEq, Repr

def XcoffFault.message : XcoffFault → String
  | header => "Invalid XCOFF header size or alignment"
  | programHeader => "Invalid XCOFF auxiliary header size"
  | sections => "Invalid XCOFF section headers"
  | symbols => "Invalid XCOFF symbol table offset or size"
  | noStrings => "Missing XCOFF string table"

/-- Why a program file cannot be read. -/
inductive BinaryFault where
  /-- The file is too short to tell its format. -/
  | noMagic
  | unknownMagic
  /-- It begins like a program with a stub for DOS but is none. -/
  | unknownProgram
  /-- It begins like an object file of a class of its own, but not of a known one. -/
  | unknownClass
  | unsupportedFormat
  | elf (cause : ElfFault)
  | coff (cause : CoffFault)
  | machO (cause : MachOFault)
  | xcoff (cause : XcoffFault)
  deriving DecidableEq, Repr

def BinaryFault.message : BinaryFault → String
  | noMagic => "Could not read file magic"
  | unknownMagic => "Unknown file magic"
  | unknownProgram => "Unknown MS-DOS file"
  | unknownClass => "Unknown anon object file"
  | unsupportedFormat => "Unsupported file format"
  | elf cause => cause.message
  | coff cause => cause.message
  | machO cause => cause.message
  | xcoff cause => cause.message

/-- A request that cannot be served as it was made. -/
inductive Misuse where
  | cpuList (text : String)
  | cpuRange (text : String)
  | threadList (pid : Nat) (cause : IoFailure)
  | modifier (letter : Char) (event : String)
  | precision (event : String)
  | unknownEvent (event : String)
  | pageCount (pages : Nat)
  /-- A descriptor whose readings carry no id cannot be routed. -/
  | idsNotRead
  | repeatedEvent (event : String)
  | emptyGroup
  | branchMask (mask : Nat)
  | stackSize (size : Nat)
  | cpuNotOnline (cpu : Nat)
  | noTarget
  | pageRange (least most : Nat)
  | noPages
  | noEvents
  | idsMissing
  | idPositions
  | attrsWritten
  | attrsEmpty
  | dataBeforeAttrs
  | featureId (id : Nat)
  | closedWithoutAttrs
  | badDescriptor (descriptor : Int)
  | zeroInterval
  | unknownCommand (name : String) (known : List String)
  /-- The arguments do not follow the command's grammar. -/
  | usage
  | percentLimit (value : String)
  | noRecordTarget
  | noProcess (pid : Nat)
  deriving DecidableEq, Repr

/-- The largest user stack dump that the kernel accepts, in whole words. -/
def maxStackDump : Nat := 65528

/-- The lowercase hexadecimal digits of a number. -/
def hexDigits (n : Nat) : String := String.ofList (Nat.toDigits 16 n)

def Misuse.message : Misuse → String
  | cpuList s => s!"invalid cpu list '{s}'"
  | cpuRange s => s!"invalid cpu range '{s}'"
  | threadList pid e => s!"Cannot read threads of process {pid}: {e.message}"
  | modifier c e => s!"unknown event modifier '{c}' in '{e}'"
  | precision e => s!"too many 'p' modifiers in '{e}'"
  | unknownEvent e => s!"unknown event type '{e}'"
  | pageCount n => s!"mmap page count {n} is not a power of two"
  | idsNotRead => "event attrs must request PERF_FORMAT_ID"
  | repeatedEvent e => s!"event type '{e}' appears more than once"
  | emptyGroup => "empty event group"
  | branchMask m => "invalid branch_sample_type: 0x" ++ hexDigits m
  | stackSize n =>
    s!"invalid dwarf stack size {n}: must be a non-zero multiple of 8 up to {maxStackDump}"
  | cpuNotOnline c => s!"cpu {c} is not online"
  | noTarget => "no process or thread to monitor"
  | pageRange lo hi => s!"invalid mmap page range {lo}..{hi}"
  | noPages => "no pages to map"
  | noEvents => "no event attrs"
  | idsMissing => "event ids are required when recording multiple events"
  | idPositions => "events have different event id positions"
  | attrsWritten => "attr section is already written"
  | attrsEmpty => "no event attrs to write"
  | dataBeforeAttrs => "data written before the attr section"
  | featureId n => s!"invalid feature id {n}"
  | closedWithoutAttrs => "record file closed without an attr section"
  | badDescriptor n => s!"invalid fd {n}"
  | zeroInterval => "periodic interval must be non-zero"
  | unknownCommand name known =>
    s!"Unknown command '{name}'. Available: " ++ ", ".intercalate known
  | usage => "error: the command does not take these arguments"
  | percentLimit v => s!"percent limit {v} is outside 0..100"
  | noRecordTarget => "No target to record. Use -p <pid>, -t <tid> or -a"
  | noProcess pid => s!"Process {pid} does not exist"

/-- What an event is opened for, in words: one thread, or every thread. -/
def threadText (tid : Int) : String :=
  if tid = -1 then "all threads" else s!"thread {tid}"

/-- The error numbers that mean a missing privilege. -/
def isPrivilegeErrno (errno : Nat) : Bool := errno == 1 || errno == 13

/-- Every way in which an operation of the library can fail. -/
inductive Error where
  /-- The kernel has no such event. -/
  | kernelRejected (event : String)
  /-- The kernel refused a descriptor for this thread and cpu. -/
  | openRefused (tid : Int) (cpu : Nat) (errno : Nat)
  /-- No cpu accepted the events; the cause is the last refusal. -/
  | noCpuAccepted (events : String) (tid : Int) (cause : Error)
  /-- There was no cpu to open the events on. -/
  | noCpuTried (events : String) (tid : Int)
  /-- A backend refused for want of privilege, in its own words. -/
  | refusedAccess (words : String)
  /-- A backend failed on a descriptor, in its own words. -/
  | failedDescriptor (words : String)
  | corrupt (cause : Corruption)
  | unsupported (feature event : String)
  /-- A backend lacks a facility, in its own words. -/
  | unavailable (words : String)
  | badBinary (path : String) (cause : BinaryFault)
  | misuse (cause : Misuse)
  | io (cause : IoFailure)
  /-- A checked sum does not fit in its type; the program ends there. -/
  | overflow
  deriving DecidableEq, Repr

namespace Error

/-- Whether a failure is for want of privilege. -/
def isPrivilege : Error → Bool
  | openRefused _ _ errno => isPrivilegeErrno errno
  | noCpuAccepted _ _ cause => cause.isPrivilege
  | refusedAccess _ => true
  | _ => false

/-- The class of a failure, which decides its preamble and its exit code. -/
inductive Kind where
  | kernelRejected
  | eventOpen
  | corrupt
  | permissionDenied
  | unsupportedFeature
  | symbolResolution
  | invalidArgument
  | io
  | overflow
  deriving DecidableEq, Repr

def kind : Error → Kind
  | kernelRejected _ => .kernelRejected
  | openRefused _ _ errno => if isPrivilegeErrno errno then .permissionDenied else .eventOpen
  | noCpuAccepted _ _ cause => if cause.isPrivilege then .permissionDenied else .eventOpen
  | noCpuTried _ _ => .eventOpen
  | refusedAccess _ => .permissionDenied
  | failedDescriptor _ => .eventOpen
  | corrupt _ => .corrupt
  | unsupported _ _ => .unsupportedFeature
  | unavailable _ => .unsupportedFeature
  | badBinary _ _ => .symbolResolution
  | misuse _ => .invalidArgument
  | io _ => .io
  | overflow => .overflow

/-- The words before the cause. -/
def Kind.preamble : Kind → String
  | .kernelRejected => ""
  | .eventOpen => "Failed to open event file: "
  | .corrupt => "Corrupt data: "
  | .permissionDenied => "Permission denied: "
  | .unsupportedFeature => "Unsupported feature: "
  | .symbolResolution => "Symbol resolution failed: "
  | .invalidArgument => "Invalid argument: "
  | .io => "I/O error: "
  | .overflow => ""

/-- The cause in words. A refusal on every cpu repeats its last cause, with
the preamble unless both are for want of privilege. -/
def detail : Error → String
  | kernelRejected event =>
    s!"Event {event} is not supported by the kernel: the event is not supported by the kernel"
  | openRefused tid cpu errno =>
    let cause := (IoFailure.os errno).message
    if isPrivilegeErrno errno then
      s!"perf_event_open for tid {tid} cpu {cpu}: {cause}. " ++
        "Try: sudo sysctl kernel.perf_event_paranoid=-1"
    else s!"tid {tid} cpu {cpu}: {cause}"
  | noCpuAccepted events tid cause =>
    let shown := if cause.isPrivilege then cause.detail else cause.kind.preamble ++ cause.detail
    s!"failed to open event {events} for {threadText tid} on all cpus: {shown}"
  | noCpuTried events tid => s!"failed to open event {events} for {threadText tid} on all cpus"
  | refusedAccess words => words
  | failedDescriptor words => words
  | corrupt cause => cause.message
  | unsupported feature event =>
    s!"{feature} is not supported for event '{event}' on this device"
  | unavailable words => words
  | badBinary path cause => s!"Failed to parse ELF {path}: {cause.message}"
  | misuse cause => cause.message
  | io cause => cause.message
  | overflow => "attempt to add with overflow"

def message (e : Error) : String := e.kind.preamble ++ e.detail

/-- The status a command exits with after this failure. -/
def exitCode (e : Error) : Nat :=
  match e.kind with
  | .permissionDenied => 2
  | .invalidArgument | .kernelRejected => 3
  | .corrupt => 4
  | .overflow => 101
  | _ => 1

end Error

/-- Reading bytes fails only by corruption, which is an error like any other. -/
instance : MonadLift (Except Corruption) (Except Error) where
  monadLift x := x.mapError Error.corrupt

/-- Steps that both succeed. -/
theorem bind_eq_ok_iff {ε α β : Type} {x : Except ε α} {g : α → Except ε β} {b : β} :
    (x >>= g) = .ok b ↔ ∃ v, x = .ok v ∧ g v = .ok b := by
  cases x with
  | error e => simp [bind, Except.bind]
  | ok v => simp [bind, Except.bind]

/-- The first of two steps fails, or the second one after it. -/
theorem bind_eq_error_iff {ε α β : Type} {x : Except ε α} {g : α → Except ε β} {e : ε} :
    (x >>= g) = .error e ↔ x = .error e ∨ ∃ v, x = .ok v ∧ g v = .error e := by
  cases x with
  | error e => simp [bind, Except.bind]
  | ok v => simp [bind, Except.bind]

/-- A step that comes after a guard. -/
theorem throwIf_bind_eq_ok_iff {ε α β : Type} {c : Prop} [Decidable c] {e : ε}
    {g : α → Except ε β} {y : Except ε β} {b : β} :
    (if c then (throw e >>= g) else y) = .ok b ↔ ¬ c ∧ y = .ok b := by
  by_cases h : c
  · simp [h, throw, throwThe, MonadExceptOf.throw, bind, Except.bind]
  · simp [h]

theorem throwIf_bind_eq_error_iff {ε α β : Type} {c : Prop} [Decidable c] {e₁ e : ε}
    {g : α → Except ε β} {y : Except ε β} :
    (if c then (throw e₁ >>= g) else y) = .error e ↔ c ∧ e₁ = e ∨ ¬ c ∧ y = .error e := by
  by_cases h : c
  · simp [h, throw, throwThe, MonadExceptOf.throw, bind, Except.bind]
  · simp [h]

/-- A guard at the end. -/
theorem throwIf_eq_ok_iff {ε : Type} {c : Prop} [Decidable c] {e : ε} :
    (if c then throw e else pure () : Except ε Unit) = .ok () ↔ ¬ c := by
  by_cases h : c
  · simp [h, throw, throwThe, MonadExceptOf.throw]
  · simp [h, pure, Except.pure]

theorem liftM_eq_ok_iff {α : Type} {x : Except Corruption α} {v : α} :
    (liftM x : Except Error α) = .ok v ↔ x = .ok v := by
  cases x with
  | error e => exact ⟨nofun, nofun⟩
  | ok w => exact ⟨fun h => by cases h; rfl, fun h => by cases h; rfl⟩

theorem liftM_eq_error_iff {α : Type} {x : Except Corruption α} {e : Error} :
    (liftM x : Except Error α) = .error e ↔ ∃ cause, x = .error cause ∧ e = .corrupt cause := by
  cases x with
  | error cause =>
    constructor
    · intro h
      cases h
      exact ⟨cause, rfl, rfl⟩
    · rintro ⟨_, ⟨⟩, rfl⟩
      rfl
  | ok v =>
    constructor
    · intro h
      cases h
    · rintro ⟨_, h, -⟩
      cases h

end Profiler
