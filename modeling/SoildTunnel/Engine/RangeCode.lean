import SoildTunnel.Engine.Scan
import SoildTunnel.Lib.Checked

-- The addresses of a range as the code computes them, in numbers of 32 bits.
namespace Engine.RangeCode

open Rust Scan Checked

-- An addition that overflows stops a debug build and wraps around in a release build.
inductive Build
  | debug
  | release

def Build.addU32 (x y : Nat) : Build → Code Nat
  | .debug => Checked.add 32 x y
  | .release => pure ((x + y) % 2 ^ 32)

-- `1u32 << n`
def Build.shlOne (n : Nat) : Build → Code Nat
  | .debug => if n < 32 then pure (2 ^ n) else fault .overflow
  | .release => pure (2 ^ (n % 32))

-- `u32::from`
def toU32 (ip : Ipv4Addr) : Nat :=
  Octets.bigEndian ip.toList

variable (b : Build)

def enumerateCidrV4 (c : Cidr Ipv4Addr) : Code (List Ipv4Addr) := do
  let hostBits := 32 - c.bits
  if hostBits = 0 then return [c.base]
  if 12 < hostBits then return []
  let size ← b.shlOne hostBits
  (List.range' 1 (size - 1 - 1)).mapM fun off => return ipv4OfNat (← b.addU32 (toU32 c.base) off)

-- The loop of `sample_cidr_v4`. The numbers are what the random generator gives one after the other;
-- where they end the loop has not come to its end.
def drawHosts (base usable want : Nat) (chosen : List Nat) (out : List Ipv4Addr) : List Nat → Code (List Ipv4Addr)
  | [] => if out.length < want then failure else return out
  | d :: draws =>
    if out.length < want then do
      let off ← b.addU32 1 (d % usable)
      if off ∈ chosen then drawHosts base usable want chosen out draws
      else do
        let a ← b.addU32 base off
        drawHosts base usable want (off :: chosen) (out ++ [ipv4OfNat a]) draws
    else
      return out

def rangeSize (hostBits : Nat) : Code Nat :=
  if 32 ≤ hostBits then pure (2 ^ 32 - 1) else b.shlOne hostBits

-- `n` is cut to 32 bits.
def sampleCidrV4 (draws : List Nat) (c : Cidr Ipv4Addr) (n : Nat) : Code (List Ipv4Addr) := do
  let size ← rangeSize b (32 - c.bits)
  if size ≤ 2 then return [c.base]
  let usable := size - 2
  drawHosts b (toU32 c.base) usable (min (n % 2 ^ 32) usable) [] [] draws

def hostsV4 (st : Strategy) (draws : List Nat) (c : Cidr Ipv4Addr) : Code (List Ipv4Addr) :=
  if st.fullSubnet then enumerateCidrV4 b c else sampleCidrV4 b draws c st.samplePerCidr

-- A range on its way from the normalisation to the code that reads it again.
def display (c : Cidr Ipv4Addr) : Text :=
  c.base.display ++ '/' :: Nat.toDigits 10 c.bits

-- `parse::<u8>`
def parseU8 (t : Text) : Option Nat :=
  ((Text.parseU16 t).map UInt16.toNat).filter (· < 256)

def parseCidrV4 (cidr : Text) : Option (Cidr Ipv4Addr) := do
  let (ip, bits) ← Delimited.cut '/' cidr
  return ⟨← parseIpv4 ip, ← parseU8 bits⟩

end Engine.RangeCode

namespace Engine.Scan

-- The generator picks what the loop can pick in a release build.
def World.Samples (w : World) : Prop :=
  ∀ i c n, ∃ draws, Checked.Gives (RangeCode.sampleCidrV4 .release draws c n) (some (w.sampleCidrV4 i c n))

end Engine.Scan
