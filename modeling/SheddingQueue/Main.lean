import SheddingQueue.Demo

/-!
# The executable

Prints what `Demo.program` says.
-/

namespace SheddingQueue

def Demo.Line.text : Demo.Line → String
  | .record text => text
  | .plain text => text

def Demo.Output.print (o : Demo.Output) : IO UInt32 := do
  for line in o.lines do
    IO.println line.text
  if let some complaint := o.complaint then
    IO.eprintln complaint
  return UInt32.ofNat o.exitCode

end SheddingQueue

def main (arguments : List String) : IO UInt32 :=
  (SheddingQueue.Demo.program arguments).print
