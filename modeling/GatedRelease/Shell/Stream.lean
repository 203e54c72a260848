import GatedRelease.FileSystem.Operations

/-! Open files. A stream is what was opened: the two ends of a pipe, a file with the place that has
been reached in it, a directory, or a device. Processes hold handles on streams, and what one of
them reads is gone for the others. -/
namespace GatedRelease.Shell

/-- A device of the system. -/
inductive Device
  /-- Empty, and takes everything. -/
  | null
  /-- Has zeros without end, and takes everything. -/
  | zero
  /-- Has zeros without end, and takes nothing. -/
  | full
  /-- Stands for an open file of the process itself. -/
  | descriptor (number : Nat)
deriving DecidableEq

/-- What was opened. -/
inductive Stream
  /-- Bytes to read next, and the pieces written behind them, the last one first. -/
  | pipe (front : Bytes) (back : List Bytes)
  | file (l : Location) (offset : Nat)
  | directory
  | device (d : Device)

/-- A process's hold on a stream. -/
structure Handle where
  stream : Nat
  reads : Bool
  writes : Bool
  /-- What is written goes to the end. -/
  appends : Bool
deriving DecidableEq

/-- How a file is opened. -/
structure OpenMode where
  reads : Bool
  writes : Bool
  appends : Bool
  /-- A missing file is made. -/
  creates : Bool
  /-- What is in the file goes away. -/
  empties : Bool
  /-- A file that is there is refused. -/
  fresh : Bool

namespace OpenMode

/-- To read what is there. -/
def reading : OpenMode := ⟨true, false, false, false, false, false⟩

/-- To write from the start. -/
def writing : OpenMode := ⟨false, true, false, true, true, false⟩

end OpenMode

namespace Device

/-- How many zeros are read at a time. -/
def block : Nat := 65536

/-- What can be read now. -/
def bytes : Device → Bytes
  | zero | full => List.replicate block 0
  | null | descriptor _ => []

end Device

namespace Stream

/-- The bytes of a file, if there is one. -/
def contents (files : FileSystem) (l : Location) : Bytes :=
  match files.tree.find? l with
  | some (.file bytes _) => bytes
  | _ => []

/-- What can be read. -/
def available (files : FileSystem) : Stream → Except Cause Bytes
  | pipe front back => .ok (front ++ back.reverse.flatten)
  | file l offset => .ok ((contents files l).drop offset)
  | directory => .error .isDirectory
  | device d => .ok d.bytes

/-- The stream behind so many bytes. -/
def skip (n : Nat) : Stream → Stream
  | pipe front back =>
    if n ≤ front.length then pipe (front.drop n) back
    else pipe ((front ++ back.reverse.flatten).drop n) []
  | file l offset => file l (offset + n)
  | s => s

/-- Bytes with others written over them from a place on. -/
def overwrite (old : Bytes) (offset : Nat) (bytes : Bytes) : Bytes :=
  old.take offset ++ List.replicate (offset - old.length) 0 ++ bytes ++
    old.drop (offset + bytes.length)

/-- The stream and the files after bytes are written. -/
def write (files : FileSystem) (atEnd : Bool) (bytes : Bytes) :
    Stream → Except Cause (Stream × FileSystem)
  | pipe front back => .ok (pipe front (bytes :: back), files)
  | file l offset =>
    match files.tree.find? l with
    | some (.file old x) =>
      let place := if atEnd then old.length else offset
      .ok (file l (place + bytes.length),
        { files with tree := files.tree.put l (.file (overwrite old place bytes) x) })
    | _ => .ok (file l (offset + bytes.length), files)
  | device .full => if bytes.isEmpty then .ok (device .full, files) else .error .noSpace
  | device d => .ok (device d, files)
  | directory => .error .badDescriptor

end Stream
end GatedRelease.Shell
