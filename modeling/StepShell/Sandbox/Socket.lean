/-! The pair of buffers through which commands read and write. -/

namespace StepShell

structure Socket where
  id : UInt32
  input : String
  output : String
  deriving DecidableEq, Repr, Inhabited

namespace Socket

def empty (id : UInt32) : Socket := ⟨id, "", ""⟩

/-- Add to what was written. -/
def write (socket : Socket) (text : String) : Socket :=
  { socket with output := socket.output ++ text }

/-- What there is to read, and the socket with nothing left to read. -/
def read (socket : Socket) : String × Socket :=
  (socket.input, { socket with input := "" })

/-- What was written becomes what there is to read. -/
def transfer (socket : Socket) : Socket :=
  { socket with input := socket.output, output := "" }

end Socket

end StepShell
