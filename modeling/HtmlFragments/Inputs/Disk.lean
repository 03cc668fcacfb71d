import HtmlFragments.Inputs.Loading
import HtmlFragments.Inputs.Utf8

/-! # A disk

The files and directories below a working directory, and the directories of the system around it.
Paths are followed one component at a time, as on a POSIX system. -/
set_option autoImplicit false

namespace HtmlFragments

/-! ## Places

A place is the row of names that leads to it from the root of the tree. A path spells names between
slashes; some of them stand for a step that stays or goes up. -/

abbrev Place := List Text

namespace Place

def components : Text → List Text
  | [] => [[]]
  | unit :: rest =>
    if unit = 0x2F then [] :: components rest
    else
      match components rest with
      | [] => [[unit]]
      | first :: others => (unit :: first) :: others

def isHere (component : Text) : Bool := component.isEmpty || component == [0x2E]

def isParent (component : Text) : Bool := component == [0x2E, 0x2E]

def ofPath (path : Text) : Place := (components path).filter (!isHere ·)

end Place

/-! ## The system around a working directory

The directories that every Linux system has, by the rules of its file system hierarchy. The files in
them differ from system to system and are not part of the tree. -/

namespace SystemTree

/-- A working directory of its own, made for one run among the temporary files. Its name holds a
slash, so that no path spells it. -/
def workingDirectory : Place := [Text.ofString "tmp", Text.ofString "/"]

def directories : List Place :=
  ["/", "/boot", "/dev", "/dev/pts", "/dev/shm", "/etc", "/etc/opt", "/home", "/media", "/mnt",
    "/opt", "/proc", "/proc/self", "/root", "/run", "/run/lock", "/srv", "/sys", "/tmp", "/usr",
    "/usr/bin", "/usr/games", "/usr/include", "/usr/lib", "/usr/lib64", "/usr/libexec",
    "/usr/local", "/usr/local/bin", "/usr/local/etc", "/usr/local/games", "/usr/local/include",
    "/usr/local/lib", "/usr/local/sbin", "/usr/local/share", "/usr/local/src", "/usr/sbin",
    "/usr/share", "/usr/src", "/var", "/var/backups", "/var/cache", "/var/lib", "/var/local",
    "/var/log", "/var/mail", "/var/opt", "/var/spool", "/var/tmp"].map fun path =>
    Place.ofPath (Text.ofString path)

def links : List (Place × Place) :=
  (Place.ofPath (Text.ofString "/proc/self/cwd"), workingDirectory) ::
    [("/bin", "/usr/bin"), ("/lib", "/usr/lib"), ("/lib64", "/usr/lib64"), ("/sbin", "/usr/sbin"),
      ("/proc/self/root", "/"), ("/var/lock", "/run/lock"), ("/var/run", "/run")].map fun link =>
      (Place.ofPath (Text.ofString link.1), Place.ofPath (Text.ofString link.2))

def kernelDirectories : List Place :=
  [Place.ofPath (Text.ofString "/proc"), Place.ofPath (Text.ofString "/sys")]

def limitsNames (directory : Place) : Bool :=
  !kernelDirectories.any fun kernelDirectory => kernelDirectory.isPrefixOf directory

end SystemTree

/-! ## Following a path -/

/-- Places of files and directories start at the working directory. -/
structure Disk where
  files : List (Place × List UInt8)
  directories : List Place
  standardInput : List UInt8

inductive Target where
  | file (bytes : List UInt8)
  | directory (place : Place)
  | missing

namespace Disk

def longestName : Nat := 255

def longestPath : Nat := 4095

/-- A place is a directory when it was made as one or something lies below it. -/
def isDirectory (disk : Disk) (place : Place) : Bool :=
  (disk.directories ++ disk.files.map (·.1.dropLast)).any place.isPrefixOf

def ownEntry (disk : Disk) (place : Place) : Target :=
  match disk.files.lookup place with
  | some bytes => .file bytes
  | none =>
    if disk.isDirectory place then .directory (SystemTree.workingDirectory ++ place) else .missing

def entry (disk : Disk) (place : Place) : Target :=
  if SystemTree.workingDirectory.isPrefixOf place then
    disk.ownEntry (place.drop SystemTree.workingDirectory.length)
  else
    match SystemTree.links.lookup place with
    | some target => .directory target
    | none => if SystemTree.directories.contains place then .directory place else .missing

/-- Follows the rest of a path. Only a directory can be followed further, and the length of a name
matters where it is looked up. The root is its own parent. -/
def follow (disk : Disk) : Target → List Text → Except Fault Target
  | target, [] => .ok target
  | .directory place, component :: rest =>
    if Place.isHere component then follow disk (.directory place) rest
    else if Place.isParent component then follow disk (.directory place.dropLast) rest
    else if SystemTree.limitsNames place && longestName < Utf8.byteLength component then
      .error .nameTooLong
    else follow disk (disk.entry (place ++ [component])) rest
  | .file _, _ :: _ => .ok .missing
  | .missing, _ :: _ => .ok .missing

def origin (path : Text) : Place :=
  if path.head? = some 0x2F then [] else SystemTree.workingDirectory

def resolve (disk : Disk) (path : Text) : Except Fault Target :=
  if path.contains 0 then .error .nulInPath
  else if path.isEmpty then .ok .missing
  else if longestPath < Utf8.byteLength path then .error .nameTooLong
  else disk.follow (.directory (origin path)) (Place.components path)

def storage (disk : Disk) : Storage where
  isFile path := do
    match ← disk.resolve path with
    | .file _ => return true
    | _ => return false
  contents path := do
    match ← disk.resolve path with
    | .file bytes => return Utf8.decode bytes
    | _ => throw (.unreadable path)
  standardInput := Utf8.decode disk.standardInput

end Disk
end HtmlFragments
