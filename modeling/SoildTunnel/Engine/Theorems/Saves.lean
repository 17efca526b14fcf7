import SoildTunnel.Engine.Theorems.Config

-- Several calls of `save` at once. They all take the same temporary file.
namespace Engine.Config.Saves

open Rust Files List Option

variable {toml : Toml} {path : Path} {pid : Nat} {identities : List Identity} {disk : Disk Path}
variable {s s' : Saves} {i : Nat} {event : Event}

def saved (toml : Toml) (identities : List Identity) : List Text :=
  identities.filterMap fun identity => (encode toml (.fromIdentity identity)).toOption

def Complete (toml : Toml) (identities : List Identity) (x : Option Data) : Prop :=
  ∃ text ∈ saved toml identities, x = some text.utf8

instance : DecidablePred (Complete toml identities) :=
  fun x => inferInstanceAs (Decidable (∃ text ∈ saved toml identities, x = some text.utf8))

def Returned (s : Saves) : Prop :=
  ∃ pc ∈ s.pcs, pc.result = some (.ok ())

instance : DecidablePred Returned :=
  fun s => inferInstanceAs (Decidable (∃ pc ∈ s.pcs, pc.result = some (.ok ())))

-- Until a call has returned, the file may be the one that was there before.
structure Whole (toml : Toml) (path : Path) (identities : List Identity) (disk : Disk Path) (s : Saves) : Prop where
  complete : s.fs.read path = disk.read path ∨ Complete toml identities (s.fs.read path)
  complete_of_returned : s.Returned → Complete toml identities (s.fs.read path)

instance : DecidablePred (Whole toml path identities disk) := fun s =>
  decidable_of_iff ((s.fs.read path = disk.read path ∨ Complete toml identities (s.fs.read path)) ∧
      (s.Returned → Complete toml identities (s.fs.read path)))
    ⟨fun ⟨h₁, h₂⟩ => ⟨h₁, h₂⟩, fun h => ⟨h.complete, h.complete_of_returned⟩⟩

-- Each call has a text to write, or could not make one.
inductive Saving (toml : Toml) (identities : List Identity) : Pc → Prop
  | writing (text : Text) (stage : Stage) (h : text ∈ saved toml identities) :
    Saving toml identities (.writing text stage)
  | failed (e : Error) : Saving toml identities (.failed e)

def AllSaving (toml : Toml) (identities : List Identity) (s : Saves) : Prop :=
  ∀ pc ∈ s.pcs, Saving toml identities pc

variable {pc : Pc}

theorem mem_start (h : pc ∈ (start toml path identities disk).pcs) :
    (∃ text ∈ saved toml identities, pc = .writing text (.start path)) ∨ ∃ e, pc = .failed e := by
  have ⟨identity, hi, he⟩ := mem_map.mp h
  subst he
  simp only [Pc.start]
  cases ht : encode toml (.fromIdentity identity)
  case error e => exact .inr ⟨e, rfl⟩
  case ok text => exact .inl ⟨text, mem_filterMap.mpr ⟨identity, hi, by rw [ht]; rfl⟩, rfl⟩

theorem allSaving_start (toml : Toml) (path : Path) (identities : List Identity) (disk : Disk Path) :
    (start toml path identities disk).AllSaving toml identities := by
  intro pc hpc
  rcases mem_start hpc with ⟨text, ht, rfl⟩ | ⟨e, rfl⟩
  · exact .writing text _ ht
  · exact .failed e

theorem not_returned_start (toml : Toml) (path : Path) (identities : List Identity) (disk : Disk Path) :
    ¬ (start toml path identities disk).Returned := by
  rintro ⟨pc, hpc, hr⟩
  rcases mem_start hpc with ⟨text, _, rfl⟩ | ⟨e, rfl⟩
  · rcases Stage.start_eq path with h | h <;> (rw [h] at hr; cases hr)
  · cases hr

def At (s : Saves) (i : Nat) (text : Text) (stage : Stage) : Prop :=
  s.pcs[i]? = some (.writing text stage)

structure Steps (toml : Toml) (path : Path) (pid : Nat) (identities : List Identity) (s s' : Saves) (i : Nat)
    (event : Event) (text : Text) (stage stage' : Stage) : Prop where
  pc : s.At i text stage
  saved : text ∈ saved toml identities
  step : stage.step path pid text.utf8 s.fs event = some (s'.fs, stage')
  pcs : s'.pcs = s.pcs.set i (.writing text stage')

variable {text : Text} {stage stage' : Stage}

theorem steps_of_step (ha : s.AllSaving toml identities) (h : s.step toml path pid identities (i, event) = some s') :
    ∃ text stage stage', Steps toml path pid identities s s' i event text stage stage' := by
  have ⟨pc, hpc, h⟩ := bind_eq_some_iff.mp h
  have ⟨identity, _, h⟩ := bind_eq_some_iff.mp h
  have ⟨⟨fs, pc'⟩, hs, h⟩ := bind_eq_some_iff.mp h
  cases h
  rcases ha pc (mem_of_getElem? hpc) with ⟨text, stage, ht⟩ | e
  · have ⟨⟨fs', stage'⟩, hm, he⟩ := map_eq_some_iff.mp hs
    cases he
    exact ⟨text, stage, stage', hpc, ht, hm, rfl⟩
  · cases hs

namespace Steps

theorem moves (h : Steps toml path pid identities s s' i event text stage stage') :
    stage.Moves path pid text.utf8 s.fs event s'.fs stage' :=
  Stage.moves_of_step h.step

theorem mem_or_eq (h : Steps toml path pid identities s s' i event text stage stage')
    (hpc : pc ∈ s'.pcs) : pc ∈ s.pcs ∨ pc = .writing text stage' :=
  mem_or_eq_of_mem_set (h.pcs ▸ hpc)

theorem allSaving (h : Steps toml path pid identities s s' i event text stage stage')
    (ha : s.AllSaving toml identities) : s'.AllSaving toml identities := by
  intro pc hpc
  rcases h.mem_or_eq hpc with hpc | rfl
  · exact ha pc hpc
  · exact .writing text stage' h.saved

theorem returned_or (h : Steps toml path pid identities s s' i event text stage stage') (hr : s'.Returned) :
    s.Returned ∨ stage' = .returned (.ok ()) := by
  have ⟨pc, hpc, hr⟩ := hr
  rcases h.mem_or_eq hpc with hpc | rfl
  · exact .inl ⟨pc, hpc, hr⟩
  · cases stage' <;> cases hr
    exact .inr rfl

theorem whole_of_read_eq (h : Steps toml path pid identities s s' i event text stage stage')
    (hw : s.Whole toml path identities disk) (hr : s'.fs.read path = s.fs.read path)
    (hn : stage' ≠ .returned (.ok ())) : s'.Whole toml path identities disk where
  complete := hr ▸ hw.complete
  complete_of_returned h' := hr ▸ hw.complete_of_returned ((h.returned_or h').resolve_right hn)

end Steps

theorem Complete.whole (h : Complete toml identities (s.fs.read path)) : s.Whole toml path identities disk :=
  ⟨.inr h, fun _ => h⟩

-- From the opening of the temporary file until it has another name or is removed.
def busy : Pc → Bool
  | .writing _ .createDirAll | .writing _ .openTemporary | .writing _ (.returned _) => false
  | .writing .. => true
  | _ => false

def opens : Pc → Bool
  | .writing _ .openTemporary => true
  | _ => false

-- A call comes to open the temporary file only when no call is at work on it.
def Exclusive (s : Saves) (l : Nat × Event) : Prop :=
  s.pcs[l.1]?.any opens → ∀ pc ∈ s.pcs, ¬ busy pc

instance (s : Saves) (l : Nat × Event) : Decidable (s.Exclusive l) :=
  inferInstanceAs (Decidable (_ → _))

theorem owns_of_not_busy {fs : Fs Path} (h : ¬ busy (.writing text stage)) : stage.Owns path pid text.utf8 fs := by
  cases stage
  case createDirAll | openTemporary | returned => trivial
  all_goals exact absurd rfl h

theorem Steps.busy_or_opens (h : Steps toml path pid identities s s' i event text stage stage')
    (hb : busy (.writing text stage')) : busy (.writing text stage) ∨ stage = .openTemporary := by
  have hm := h.moves
  generalize s'.fs = fs' at hm
  cases hm
  case opened => exact .inr rfl
  case failed hc =>
    cases stage
    case openTemporary => exact .inr rfl
    case createDirAll | returned => cases hc
    all_goals exact .inl rfl
  case directory | noDirectory | renamed | removed | left => cases hb
  all_goals exact .inl rfl

-- A call that is not at work on the temporary file and does not open it leaves the files alone.
theorem Steps.fs_eq (h : Steps toml path pid identities s s' i event text stage stage')
    (hb : ¬ busy (.writing text stage)) (ho : stage ≠ .openTemporary) : s'.fs = s.fs := by
  have hm := h.moves
  generalize s'.fs = fs' at hm
  cases hm
  case directory | noDirectory | failed => rfl
  case opened => exact absurd rfl ho
  all_goals exact absurd rfl hb

theorem Steps.at_cases (h : Steps toml path pid identities s s' i event text stage stage') {j : Nat}
    (ha : s'.pcs[j]? = some pc) : j = i ∧ pc = .writing text stage' ∨ i ≠ j ∧ s.pcs[j]? = some pc := by
  rw [h.pcs] at ha
  by_cases hj : i = j
  case pos =>
    subst hj
    rw [List.getElem?_set_self (List.getElem?_eq_some_iff.mp h.pc).1] at ha
    exact .inl ⟨rfl, (Option.some.inj ha).symm⟩
  case neg =>
    rw [List.getElem?_set_ne hj] at ha
    exact .inr ⟨hj, ha⟩

-- At most one call is at work on the temporary file, and what it has written is there.
structure Owned (toml : Toml) (path : Path) (pid : Nat) (identities : List Identity) (disk : Disk Path) (s : Saves) :
    Prop where
  allSaving : s.AllSaving toml identities
  whole : s.Whole toml path identities disk
  owns : ∀ i text stage, s.At i text stage → stage.Owns path pid text.utf8 s.fs
  one : ∀ (i j : Nat) pc pc', s.pcs[i]? = some pc → s.pcs[j]? = some pc' → busy pc → busy pc' → i = j

theorem Owned.step (ho : s.Owned toml path pid identities disk) (he : s.Exclusive (i, event))
    (hs : s.step toml path pid identities (i, event) = some s') : s'.Owned toml path pid identities disk := by
  have ⟨text, stage, stage', h⟩ := steps_of_step ho.allSaving hs
  have hown := ho.owns i text stage h.pc
  have hidle (j : Nat) (pc : Pc) (hj : i ≠ j) (ha : s.pcs[j]? = some pc) (hb : busy pc) :
      ¬ busy (.writing text stage') ∧ s'.fs = s.fs := by
    have hn : ¬ busy (.writing text stage) := fun hb' => hj (ho.one i j _ _ h.pc ha hb' hb)
    have ho : stage ≠ .openTemporary := by
      rintro rfl
      exact he (by rw [show s.pcs[i]? = _ from h.pc]; rfl) pc (mem_of_getElem? ha) hb
    exact ⟨fun hb' => (h.busy_or_opens hb').elim hn ho, h.fs_eq hn ho⟩
  constructor
  case allSaving => exact h.allSaving ho.allSaving
  case whole =>
    rcases hown.local_of_moves h.moves with ⟨hl, hn⟩ | ⟨hr, rfl, rfl⟩
    · exact h.whole_of_read_eq ho.whole (hl.read_eq (temporary_ne path pid)) hn
    · obtain ⟨k, hk, hd, -⟩ := hown
      refine Complete.whole ⟨text, h.saved, ?_⟩
      rw [Fs.read_rename hr, Disk.read, hk, map_some, hd]
  case owns =>
    intro j text' stage'' ha
    rcases h.at_cases ha with ⟨rfl, hpc⟩ | ⟨hj, ha⟩
    · cases hpc
      exact hown.of_moves h.moves
    · by_cases hb : busy (.writing text' stage'')
      case pos => rw [(hidle j _ hj ha hb).2]; exact ho.owns j text' stage'' ha
      case neg => exact owns_of_not_busy hb
  case one =>
    intro j k pc pc' h₁ h₂ hb₁ hb₂
    rcases h.at_cases h₁ with ⟨rfl, rfl⟩ | ⟨hj, h₁⟩ <;> rcases h.at_cases h₂ with ⟨rfl, rfl⟩ | ⟨hk, h₂⟩
    · rfl
    · exact absurd hb₁ (hidle k _ hk h₂ hb₂).1
    · exact absurd hb₂ (hidle j _ hj h₁ hb₁).1
    · exact ho.one j k _ _ h₁ h₂ hb₁ hb₂

theorem not_busy_start (h : pc ∈ (start toml path identities disk).pcs) : ¬ busy pc := by
  rcases mem_start h with ⟨text, -, rfl⟩ | ⟨e, rfl⟩
  · rcases Stage.start_eq path with h | h <;> (rw [h]; exact nofun)
  · exact nofun

theorem whole_start (toml : Toml) (path : Path) (identities : List Identity) (disk : Disk Path) :
    (start toml path identities disk).Whole toml path identities disk where
  complete := .inl rfl
  complete_of_returned h := absurd h (not_returned_start toml path identities disk)

-- The file is sound when the calls take turns with the temporary file.
theorem always_whole (toml : Toml) (path : Path) (pid : Nat) (identities : List Identity) (disk : Disk Path)
    (run : List (Nat × Event))
    (h : Lts.Admits (step toml path pid identities) Exclusive (start toml path identities disk) run) :
    Lts.Always (step toml path pid identities) (Whole toml path identities disk)
      (start toml path identities disk) run := by
  refine Lts.always_of_admits (I := Owned toml path pid identities disk)
    (fun s ⟨i, event⟩ s' ho he hs => ho.step he hs) (fun s ho => ho.whole) ?_ h
  exact {
    allSaving := allSaving_start toml path identities disk
    whole := whole_start toml path identities disk
    owns := fun i text stage ha => owns_of_not_busy (not_busy_start (mem_of_getElem? ha))
    one := fun i _ pc _ ha _ hb _ => absurd hb (not_busy_start (mem_of_getElem? ha)) }

-- The first line of a file, an identity with a given name and an empty disk.
def firstLine : Toml where
  toStringPretty persisted := .ok ("device_id = \"".toList ++ persisted.deviceId ++ "\"\n".toList)
  fromStr _ := .error ""

def device (name : String) : Identity where
  deviceId := name.toList
  accessToken := []
  certPem := []
  keyPem := []
  certIssuedAt := 0
  ipv4 := []
  ipv6 := []
  wgPrivateKey := .replicate 32 0
  wgPeerPublicKey := .replicate 32 0
  clientId := .replicate 3 0
  organization := []
  gatewayProxy := []
  assignedEndpoint := []

def emptyDisk : Disk Path where
  names := { file := fun _ => none, fresh := 0, file_inj := nofun, file_lt := nofun }
  data _ := []

-- Two calls, one after the other; the second one has to write twice.
def takingTurns : List (Nat × Event) :=
  [(0, .ok), (0, .wrote 16), (0, .ok), (0, .ok), (0, .ok), (0, .ok), (0, .ok),
    (1, .ok), (1, .wrote 3), (1, .wrote 13), (1, .ok), (1, .ok), (1, .ok), (1, .ok), (1, .ok)]

theorem always_whole_takingTurns :
    Lts.Always (step firstLine [.normal "soildtunnel.toml".toList] 1 [device "a", device "b"])
      (Whole firstLine [.normal "soildtunnel.toml".toList] [device "a", device "b"] emptyDisk)
      (start firstLine [.normal "soildtunnel.toml".toList] [device "a", device "b"] emptyDisk) takingTurns :=
  always_whole _ _ _ _ _ _ (by decide +kernel)

-- The first call has written its text; the second one opens the temporary file, which cuts it to
-- nothing; then the first call renames it.
theorem not_always_whole :
    ¬ Lts.Always (step firstLine [.normal "soildtunnel.toml".toList] 1 [device "a", device "b"])
      (Whole firstLine [.normal "soildtunnel.toml".toList] [device "a", device "b"] emptyDisk)
      (start firstLine [.normal "soildtunnel.toml".toList] [device "a", device "b"] emptyDisk)
      [(0, .ok), (0, .wrote 16), (0, .ok), (0, .ok), (0, .ok), (0, .ok), (1, .ok), (0, .ok)] :=
  Lts.not_always (by decide +kernel)

end Engine.Config.Saves
