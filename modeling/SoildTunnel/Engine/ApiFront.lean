import SoildTunnel.Engine.Account
import SoildTunnel.Lib.Checked
import SoildTunnel.Rust.Radix
import SoildTunnel.Rust.Slice

-- The answers of the account API as they come over the camouflaged route, with all that can go wrong
-- when they are read.
namespace Engine.ApiFront

open Rust Checked

-- A position that is outside of the text, or inside of a character.
def sliced (part : Option Text) : Except Fault Text :=
  match part with
  | some text => .ok text
  | none => .error .bounds

variable (width : Nat)

def sum (a b : Nat) : Except Fault Nat :=
  if a + b < 2 ^ width then .ok (a + b) else .error .overflow

-- The size that a chunk has by its first line. Nothing, and zero, end the body.
def chunkSize (line : Text) : Option Nat :=
  (Text.fromStrRadix width 16 (Text.trim ((line.splitOn ';').headD []))).filter (· ≠ 0)

-- The data of a chunk whose first line ends at a position, and the position of the next one. A chunk that
-- goes beyond the end of the body ends it too.
def takeChunk (body : Text) (lineEnd size : Nat) : Except Fault (Option (Text × Nat)) := do
  let start ← sum width lineEnd 2
  let stop ← sum width start size
  if stop > body.utf8.length then pure none
  else do
    let piece ← sliced (Text.slice start stop body)
    let next ← sum width stop 2
    pure (some (piece, next))

def turn (body : Text) (cursor : Nat) : Except Fault (Option (Text × Nat)) :=
  if cursor < body.utf8.length then do
    let rest ← sliced (Text.sliceFrom cursor body)
    match Text.splitOnce ['\r', '\n'] rest with
    | none => pure none
    | some (before, _) => do
      let lineEnd ← sum width cursor before.utf8.length
      let line ← sliced (Text.slice cursor lineEnd body)
      match chunkSize width line with
      | none => pure none
      | some size => takeChunk width body lineEnd size
  else pure none

def dechunkLoop (body : Text) : Nat → Nat → Text → Except Fault Text
  | 0, _, _ => .error .endless
  | rounds + 1, cursor, out => do
    match ← turn width body cursor with
    | none => pure out
    | some (piece, next) => dechunkLoop body rounds next (out ++ piece)

def dechunk (body : Text) : Except Fault Text :=
  dechunkLoop width body (body.utf8.length + 1) 0 []

variable (cm : CaseMap)

def isChunked (line : Text) : Bool :=
  let lowered := cm.toLowercase line
  "transfer-encoding:".toList.isPrefixOf lowered && Text.contains "chunked".toList lowered

def statusOf (statusLine : Text) : Option UInt16 :=
  ((Text.splitWhitespace statusLine)[1]?).bind Text.parseU16

-- The head is cut off at a place that was found in the text. It has a first line, even if that is empty.
def parseResponse (raw : Bytes) : Except Fault (Except Account.Failure (Nat × Text)) :=
  match Text.splitOnce ['\r', '\n', '\r', '\n'] (Text.fromUtf8Lossy raw) with
  | none => .ok (.error (.api "truncated response head"))
  | some (head, body) =>
    let lines := Text.splitCrlf head
    match statusOf (lines.headD []) with
    | none => .ok (.error (.api ("bad status line: " ++ String.ofList (lines.headD []))))
    | some status =>
      if lines.tail.any (isChunked cm) then (dechunk width body).map fun body => .ok (status.toNat, body)
      else .ok (.ok (status.toNat, body))

end Engine.ApiFront
