import RateTree.HostError
import RateTree.Text.Blank

/-!
# Files

A working directory held in memory, and what the system answers when a path is read from it: the
contents of a file, or the error number of the first step that fails. Of what lies around the
working directory, only the directories that systems have in common are known, and the empty file
among the devices.
-/

namespace RateTree

/-- A directory that holds files and no directories. -/
structure WorkingDirectory where
  files : List (String × ByteArray)

/-- A directory that a path can lead to. -/
inductive Place where
  | working
  /-- A directory of the system, by the names that lead to it from the root. -/
  | system (names : List String)

namespace Place

/-- The top of the system directories. -/
def root : Place := .system []

/-- The directory that a place lies in. The working directory lies among the temporary files, and
the root lies in itself. -/
def parent : Place → Place
  | .working => .system ["tmp"]
  | .system names => .system names.dropLast

/-- Directories that any system has, by the paths to them. -/
def common : List String :=
  ["bin", "boot", "dev", "dev/pts", "dev/shm", "etc", "home", "lib", "lib64", "media", "mnt", "opt",
    "proc", "proc/self", "root", "run", "sbin", "srv", "sys", "tmp", "usr", "usr/bin",
    "usr/include", "usr/lib", "usr/local", "usr/local/bin", "usr/local/lib", "usr/sbin",
    "usr/share", "usr/src", "var", "var/cache", "var/lib", "var/log", "var/tmp"]

end Place

/-- What stands behind a name in a directory. -/
inductive DirectoryEntry where
  | directory (place : Place)
  | file (contents : ByteArray)
  | missing

namespace WorkingDirectory

/-- The largest number of bytes in a path, its end included. -/
def maxPath : Nat := 4096

/-- The longest name of a file, in bytes. -/
def maxName : Nat := 255

/-- What has a name in a place. Nothing is known of the system but its common directories and the empty
device. -/
def lookUp (directory : WorkingDirectory) (name : String) : Place → DirectoryEntry
  | .working =>
    match directory.files.lookup name with
    | some contents => .file contents
    | none => .missing
  | .system names =>
    let path := "/".intercalate (names ++ [name])
    if path = "dev/null" then .file ByteArray.empty
    else if Place.common.contains path then .directory (.system (names ++ [name]))
    else .missing

/-- The names a path leads through; empty names and dots lead nowhere else. -/
def steps (path : String) : List String :=
  ((Text.splitOn '/' path.toList).map String.ofList).filter fun name => name != "" && name != "."

/-- Reads along the names of a path, starting from a directory; `ended` tells whether the path ends
in a name. -/
def readSteps (directory : WorkingDirectory) (ended : Bool) :
    Place → List String → Except HostError ByteArray
  | _, [] => .error (.system 21)
  | place, ".." :: rest => directory.readSteps ended place.parent rest
  | place, name :: rest =>
    match directory.lookUp name place with
    | .directory inner => directory.readSteps ended inner rest
    | .file contents => if rest.isEmpty && ended then .ok contents else .error (.system 20)
    | .missing => .error (.system (if maxName < name.utf8ByteSize then 36 else 2))

/-- Whether a path ends in a name, and not in a slash or a dot behind one. -/
def endsInName (path : String) : Bool :=
  match (Text.splitOn '/' path.toList).getLast? with
  | none | some [] | some ['.'] => false
  | some _ => true

/-- Reads a file under a path, which may lead through directories and back. -/
def read (directory : WorkingDirectory) (path : String) : Except HostError ByteArray :=
  if path.toList.contains '\x00' then .error .nulInFileName
  else if path = "" then .error (.system 2)
  else if maxPath ≤ path.utf8ByteSize then .error (.system 36)
  else
    let start : Place := if path.startsWith "/" then .root else .working
    directory.readSteps (endsInName path) start (steps path)

end WorkingDirectory

end RateTree
