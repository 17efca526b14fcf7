import SoildTunnel.Engine.ZeroTrust

-- Whose token a call gets.
namespace Engine.ZeroTrust

open Rust List

theorem signIn_token {libs : Libs} {s : TeamSettings} {now : Nat} {fetched : Except String Text}
    {t token : Text} (ht : s.token = some t) (h : signIn libs s now fetched = .ok token) : token = t := by
  simp only [signIn, ht] at h
  split at h
  case isTrue => cases h
  case isFalse =>
    split at h
    case isTrue => cases h
    case isFalse => cases h; rfl

-- The settings get a token of their own.
structure Own (p : Process) (s : TeamSettings) (token : Text) : Prop where
  team : (s.team, token) ∈ p.signIns
  supplied : ∀ t, s.token = some t → token = t

instance {p : Process} {s : TeamSettings} {token : Text} : Decidable (Own p s token) :=
  decidable_of_iff ((s.team, token) ∈ p.signIns ∧ ∀ t ∈ s.token, token = t)
    ⟨fun ⟨h₁, h₂⟩ => ⟨h₁, h₂⟩, fun h => ⟨h.team, h.supplied⟩⟩

namespace Process

variable {libs : Libs} {p p' : Process} {call : Call}

def Bound (p : Process) : Prop :=
  ∀ r ∈ p.returned, Own p r.1 r.2

instance : DecidablePred Bound :=
  fun p => inferInstanceAs (Decidable (∀ r ∈ p.returned, Own p r.1 r.2))

-- While the token of the last sign-in is there and has not expired, only the team of that sign-in
-- calls, and with no other token in its settings.
def SameTeam (libs : Libs) (p : Process) (call : Call) : Prop :=
  p.cache.isSome → ∀ last ∈ p.signIns.getLast?, ¬ jwtExpired libs last.2 call.now →
    call.settings.team = last.1 ∧ ∀ t ∈ call.settings.token, t = last.2

instance : Decidable (SameTeam libs p call) :=
  inferInstanceAs (Decidable (_ → _))

structure Inv (p : Process) : Prop where
  bound : p.Bound
  cached : ∀ token ∈ p.cache, ∃ team, p.signIns.getLast? = some (team, token)

theorem Inv.reused (hi : p.Inv) (hc : SameTeam libs p call) {cached : Text} (h : p.reusable libs call.now = some cached) :
    Own p call.settings cached := by
  obtain ⟨hp, hn⟩ := Option.filter_eq_some_iff.mp h
  obtain ⟨team, hl⟩ := hi.cached cached hp
  obtain ⟨ht, hs⟩ := hc (Option.isSome_of_mem hp) _ hl (by simpa using hn)
  exact ⟨ht ▸ mem_of_getLast? hl, fun t h => (hs t h).symm⟩

theorem Inv.step (hi : p.Inv) (hc : SameTeam libs p call) (h : p.step libs call = some p') : p'.Inv := by
  obtain rfl := Option.some_inj.mp h
  simp only [resolveToken]
  split
  case h_1 cached hr =>
    have ho := hi.reused hc hr
    refine ⟨fun r hm => ?_, hi.cached⟩
    rcases mem_append.mp hm with hm | hm
    · exact ⟨(hi.bound r hm).team, (hi.bound r hm).supplied⟩
    · obtain rfl := mem_singleton.mp hm
      exact ⟨ho.team, ho.supplied⟩
  case h_2 =>
    split
    case h_1 token hs =>
      refine ⟨fun r hm => ?_, fun t ht => ?_⟩
      · rcases mem_append.mp hm with hm | hm
        · exact ⟨mem_append_left _ (hi.bound r hm).team, (hi.bound r hm).supplied⟩
        · obtain rfl := mem_singleton.mp hm
          exact ⟨mem_append_right _ (mem_singleton_self _), fun t ht => signIn_token ht hs⟩
      · cases ht
        exact ⟨call.settings.team, by simp⟩
    case h_2 => exact ⟨fun r hr => ⟨(hi.bound r hr).team, (hi.bound r hr).supplied⟩, nofun⟩

theorem always_bound (libs : Libs) (calls : List Call) (h : Lts.Admits (step libs) (SameTeam libs) {} calls) :
    Lts.Always (step libs) Bound {} calls :=
  Lts.always_of_admits (I := Inv) (fun _ _ _ hi hc hs => hi.step hc hs) (fun _ hi => hi.bound)
    ⟨fun _ hr => absurd hr not_mem_nil, nofun⟩ h

end Process

-- Base64 with the URL-safe alphabet, without padding.
def sextet (c : Char) : Option Nat :=
  if 'A' ≤ c ∧ c ≤ 'Z' then some (c.toNat - 65)
  else if 'a' ≤ c ∧ c ≤ 'z' then some (c.toNat - 71)
  else if '0' ≤ c ∧ c ≤ '9' then some (c.toNat + 4)
  else if c = '-' then some 62
  else if c = '_' then some 63
  else none

-- The bits that a last, incomplete group leaves over must be zero.
def decodeSextets : List Nat → Option Bytes
  | [] => some []
  | [_] => none
  | [a, b] => if b % 16 = 0 then some [.ofNat (a * 4 + b / 16)] else none
  | [a, b, c] =>
    if c % 4 = 0 then some [.ofNat (a * 4 + b / 16), .ofNat (b % 16 * 16 + c / 4)] else none
  | a :: b :: c :: d :: rest =>
    (decodeSextets rest).map fun bytes =>
      .ofNat (a * 4 + b / 16) :: .ofNat (b % 16 * 16 + c / 4) :: .ofNat (c % 4 * 64 + d) :: bytes

def urlSafe (exp : Bytes → Option Nat) : Libs :=
  ⟨fun segment => (segment.mapM sextet).bind decodeSextets, exp⟩

namespace Process

-- Two teams sign in one after the other, each with a token that it was given.
def suppliedTo (team token : String) : Call where
  settings := { team := team.toList, token := some token.toList }
  now := 0
  fetched := .error ""

-- The second call of a team uses its token again; the other team comes when it has expired.
theorem always_bound_inTurn : Lts.Always (step (urlSafe fun _ => some 5)) Bound {}
      [suppliedTo "a" "aaaaaaaaaaaaaaaa.bbbbbbbb.cccccccc", suppliedTo "a" "aaaaaaaaaaaaaaaa.bbbbbbbb.cccccccc",
       { suppliedTo "b" "" with settings := { team := ['b'], email := some ['c'] }, now := 5, fetched := .ok ['d'] }] :=
  always_bound _ _ (by decide +kernel)

theorem not_always_bound : ¬ Lts.Always (step (urlSafe fun _ => none)) Bound {}
      [suppliedTo "a" "aaaaaaaaaaaaaaaa.bbbbbbbb.cccccccc",
       suppliedTo "b" "bbbbbbbbbbbbbbbb.bbbbbbbb.cccccccc"] :=
  Lts.not_always (by decide +kernel)

end Process

end Engine.ZeroTrust
