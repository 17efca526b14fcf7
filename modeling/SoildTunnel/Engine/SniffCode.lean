import SoildTunnel.Engine.Masque
import SoildTunnel.Engine.Sniff
import SoildTunnel.Lib.Checked

-- Reading a name out of a TLS hello with every access and sum.
namespace Engine.Sniff.Code

open Rust Checked

variable {width : Nat}

def be16 (buf : Slice width) (pos : Nat) : Code Nat := do
  let hi ← buf.get pos
  let lo ← buf.get (← add width pos 1)
  return hi.toNat * 256 + lo.toNat

def be24 (buf : Slice width) (pos : Nat) : Code Nat := do
  let a ← buf.get pos
  let b ← buf.get (← add width pos 1)
  let c ← buf.get (← add width pos 2)
  return a.toNat * 65536 + b.toNat * 256 + c.toNat

variable (cm : CaseMap)

def serverName (data : Slice width) (listEnd : Nat) : Nat → Nat → Code Text
  | 0, _ => fault .endless
  | fuel + 1, pos => do
    require ((← add width pos 3) ≤ listEnd)
    let kind ← data.get pos
    let len ← be16 data (← add width pos 1)
    let start ← add width pos 3
    let stop ← checkedAdd width start len
    require (stop ≤ listEnd)
    if kind = SNI_HOST_NAME then do
      let raw ← data.part start stop
      ofOption (plausibleHost cm raw.bytes)
    else serverName data listEnd fuel stop

def firstServerName (data : Slice width) : Code Text := do
  let listLen ← be16 data 0
  let listEnd := min (← checkedAdd width 2 listLen) data.length
  serverName cm data listEnd (data.length + 1) 2

def extensions (hello : Slice width) (extensionsEnd : Nat) : Nat → Nat → Code Text
  | 0, _ => fault .endless
  | fuel + 1, pos => do
    require ((← add width pos 4) ≤ extensionsEnd)
    let kind ← be16 hello pos
    let len ← be16 hello (← add width pos 2)
    let start ← add width pos 4
    let stop ← checkedAdd width start len
    require (stop ≤ extensionsEnd)
    if kind = EXT_SERVER_NAME then do
      let data ← hello.part start stop
      firstServerName cm data
    else extensions hello extensionsEnd fuel stop

def tlsSni (buf : Slice width) : Code Text := do
  require ((← buf.get 0) = TLS_HANDSHAKE)
  let recordLen ← be16 buf 3
  let body ← buf.part 5 (min (← checkedAdd width 5 recordLen) buf.length)
  require ((← body.get 0) = TLS_CLIENT_HELLO)
  let helloLen ← be24 body 1
  let hello ← body.part 4 (min (← checkedAdd width 4 helloLen) body.length)
  let sessionLen ← hello.get 34
  let pos ← checkedAdd width 34 (← add width 1 sessionLen.toNat)
  let cipherLen ← be16 hello pos
  let pos ← checkedAdd width pos (← add width 2 cipherLen)
  let compressionLen ← hello.get pos
  let pos ← checkedAdd width pos (← add width 1 compressionLen.toNat)
  let extensionsLen ← be16 hello pos
  let pos ← checkedAdd width pos 2
  let extensionsEnd := min (← checkedAdd width pos extensionsLen) hello.length
  extensions cm hello extensionsEnd (hello.length + 1) pos

end Engine.Sniff.Code
