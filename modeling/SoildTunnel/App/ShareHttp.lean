import Mathlib

-- The HTTP proxy of the share.
namespace App.ShareHttp

abbrev Bytes := List UInt8

abbrev CR : UInt8 := 13
abbrev LF : UInt8 := 10

def MAX_HEADER_BYTES : Nat := 64 * 1024

-- How much of the empty line has been seen.
def nextRun (run : Nat) (b : UInt8) : Nat :=
  if b = CR ∧ (run = 0 ∨ run = 2) then run + 1
  else if b = LF ∧ (run = 1 ∨ run = 3) then run + 1
  else 0

def readHeader (buf : Bytes) (run : Nat) : Bytes → Option Bytes
  -- The client has closed its side, or there is no room for more.
  | [] => none
  | b :: input =>
    if buf.length < MAX_HEADER_BYTES then
      if nextRun run b = 4 then some (buf ++ [b]) else readHeader (buf ++ [b]) (nextRun run b) input
    else none

def readHeaderBlock (input : Bytes) : Option Bytes :=
  readHeader [] 0 input

end App.ShareHttp
