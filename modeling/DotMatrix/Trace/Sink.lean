import DotMatrix.Files.Volume

/-!
# Where trace lines go

Lines are collected in memory, or written to a file through a buffer: what would not fit into the
buffer first pushes its contents out, to the place in the file where the last write ended. The rest
leaves the buffer when the trace is closed. After a write has failed nothing more is written.
-/

namespace DotMatrix.Trace

/-- A file that is being written through a buffer. -/
structure BufferedFile where
  place : Place
  /-- Bytes that have been written to the file. -/
  written : Nat
  buffer : ByteArray
  failed : Bool

namespace BufferedFile

/-- Bytes that the buffer can hold. -/
def capacity : Nat := 8192

/-- A file just created. -/
def ofPlace (place : Place) : BufferedFile := ⟨place, 0, .empty, false⟩

variable (f : BufferedFile)

/-- Write the buffer to the file. -/
def flush (volume : Volume) : BufferedFile × Volume :=
  match volume.writeAt f.place f.written f.buffer with
  | .ok volume => ({ f with written := f.written + f.buffer.size, buffer := .empty }, volume)
  | .error _ => ({ f with failed := true }, volume)

/-- Write bytes, fewer than the buffer can hold. -/
def write (volume : Volume) (bytes : ByteArray) : BufferedFile × Volume :=
  if f.failed then (f, volume)
  else
    let (f, volume) :=
      if capacity < f.buffer.size + bytes.size then f.flush volume else (f, volume)
    if f.failed then (f, volume) else ({ f with buffer := f.buffer ++ bytes }, volume)

end BufferedFile

/-- A receiver of trace lines. -/
inductive Sink
  | memory (lines : Array String)
  | file (f : BufferedFile)

namespace Sink

/-- Receive a line. A file gets the line and its end as two pieces. -/
def record (volume : Volume) (line : String) : Sink → Sink × Volume
  | .memory lines => (.memory (lines.push line), volume)
  | .file f =>
    let (f, volume) := f.write volume line.toUTF8
    let (f, volume) := f.write volume "\n".toUTF8
    (.file f, volume)

/-- Write out what is still in a buffer. -/
def close (volume : Volume) : Sink → Volume
  | .memory _ => volume
  | .file f => (f.flush volume).2

end Sink

end DotMatrix.Trace
