import GatedRelease.Shell.Stream
import GatedRelease.Text.Utf8

/-! What a system brings along before anybody works on it: the usual directories, the devices, and
the programs, each as a file of its own. The files that commands work on stand in a place of their
own in it. -/
namespace GatedRelease.Shell.System

/-- The programs, which all stand in one directory. -/
def programs : List String := ["[", "basename", "bash", "cat", "chmod", "cp", "dash", "dirname",
  "echo", "env", "false", "grep", "head", "ln", "ls", "mkdir", "mv", "printf", "pwd", "rm", "rmdir",
  "seq", "sh", "sleep", "sort", "sync", "tail", "test", "touch", "true", "wc"]

/-- The devices by name. -/
def devices : List (String × Device) := [("full", .full), ("null", .null), ("zero", .zero),
  ("stdin", .descriptor 0), ("stdout", .descriptor 1), ("stderr", .descriptor 2)]

/-- How many open files have a name among the devices. -/
def numbered : Nat := 10

/-- The names of a path as a location. -/
def location (names : List String) : Location := names.filterMap Name.ofString?

/-- The directories, each after the one that it is in. -/
def directories : List (List String) := [["boot"], ["dev"], ["dev", "fd"], ["etc"], ["home"],
  ["media"], ["mnt"], ["opt"], ["proc"], ["root"], ["run"], ["srv"], ["sys"], ["tmp"], ["usr"],
  ["usr", "bin"], ["usr", "lib"], ["usr", "local"], ["usr", "local", "bin"],
  ["usr", "local", "sbin"], ["usr", "sbin"], ["usr", "share"], ["var"], ["var", "tmp"]]

/-- Names of directories at the top that lead into another. -/
def links : List (String × String) := [("bin", "usr/bin"), ("lib", "usr/lib"), ("sbin", "usr/sbin")]

/-- The bytes that a program of the system starts with. -/
def signature : Bytes := [0x7F, 0x45, 0x4C, 0x46]

/-- Everything that the system brings along. -/
def entries : List (Location × Entry) :=
  directories.map (fun d => (location d, .directory)) ++
  links.map (fun l => (location [l.1], .link l.2)) ++
  programs.map (fun p => (location ["usr", "bin", p], .file signature true)) ++
  devices.map (fun d => (location ["dev", d.1], .file [] false)) ++
  (List.range numbered).map fun n => (location ["dev", "fd", toString n], .file [] false)

/-- Where the files stand that commands work on. -/
def place : Location := location ["tmp", "work"]

/-- The tree of the system. -/
def tree : Tree := (entries ++ [(place, Entry.directory)]).foldl (fun t e => t.put e.1 e.2) .empty

/-- Files in their place in the system. -/
def around (fs : FileSystem) : FileSystem := ⟨tree.graft place fs.tree, place ++ fs.home⟩

/-- The files in their place, taken out of the system. -/
def within (fs : FileSystem) (home : Location) : FileSystem := ⟨fs.tree.below place, home⟩

/-- The device at a location. -/
def device? (l : Location) : Option Device :=
  match l.map (·.text) with
  | ["dev", name] => devices.lookup name
  | ["dev", "fd", number] => number.toNat?.map .descriptor
  | _ => none

/-- The program at a location. -/
def program? (l : Location) : Option String :=
  match l.map (·.text) with
  | ["usr", "bin", name] => if programs.contains name then some name else none
  | _ => none

/-- The program is the shell. -/
def isShell (name : String) : Bool := name == "sh" || name == "dash" || name == "bash"

end GatedRelease.Shell.System
