import ParserKit.CommandLine.Basic

open ParserKit CommandLine

def usageLine : String := "usage: [-h] [--debug] (ast | eval | json | rle-decode | rle-encode) text"

def main (args : List String) : IO UInt32 := do
  match CommandLine.runWith .standard args with
  | .exited status stdout stderr =>
    IO.eprint stderr
    IO.print stdout
    return status.toUInt32
  | .stopped .help =>
    IO.println usageLine
    return 0
  | .stopped .usage =>
    IO.eprintln usageLine
    return 2
  | .crashed fault =>
    IO.eprintln (repr fault).pretty
    return 1
