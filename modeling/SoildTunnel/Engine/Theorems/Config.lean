import SoildTunnel.Engine.Config

-- What the file shows while it is replaced.
namespace Engine.Config

open Rust Files Option

theorem temporary_ne (path : Path) (pid : Nat) : path ≠ temporary path pid := by
  refine (Path.setFileName_ne fun h => ?_).symm
  have hl := congrArg List.length (congrArg (Option.getD · "soildtunnel.toml".toList) h)
  simp at hl
  omega

variable {toml : Toml} {path : Path} {pid : Nat} {fs fs' : Fs Path} {event : Event}

namespace Stage

variable {contents : Bytes} {stage stage' : Stage}

-- The operations of the closure, after whose failure the temporary file is removed.
def InClosure : Stage → Prop
  | .createDirAll => False
  | .removeTemporary _ => False
  | .returned _ => False
  | _ => True

inductive Moves (path : Path) (pid : Nat) (contents : Bytes) (fs : Fs Path) : Stage → Event → Fs Path → Stage → Prop
  | directory : Moves path pid contents fs .createDirAll .ok fs .openTemporary
  | noDirectory (e : String) :
    Moves path pid contents fs .createDirAll (.failed e) fs (.returned (.error (.io e)))
  | opened :
    Moves path pid contents fs .openTemporary .ok (fs.openTruncate (temporary path pid)).1
      (.writeAll ⟨(fs.openTruncate (temporary path pid)).2, 0⟩ contents)
  | wrote (fd : Fd) (rest : Bytes) (n : Nat) (hn : 0 < n) (hl : n ≤ rest.length) :
    Moves path pid contents fs (.writeAll fd rest) (.wrote n) (fs.writeAt fd.file fd.offset (rest.take n))
      (.writeAll ⟨fd.file, fd.offset + n⟩ (rest.drop n))
  | wroteNothing (fd : Fd) (rest : Bytes) (e : Error) :
    Moves path pid contents fs (.writeAll fd rest) (.wrote 0) fs (.removeTemporary e)
  | written (fd : Fd) : Moves path pid contents fs (.writeAll fd []) .ok fs (.flush fd)
  | flushed (fd : Fd) : Moves path pid contents fs (.flush fd) .ok fs (.syncAll fd)
  | synced (fd : Fd) : Moves path pid contents fs (.syncAll fd) .ok (fs.sync fd.file) .setPermissions
  | permitted : Moves path pid contents fs .setPermissions .ok fs .rename
  | renamed {fs' : Fs Path} (h : fs.rename (temporary path pid) path = some fs') :
    Moves path pid contents fs .rename .ok fs' (.returned (.ok ()))
  | failed (stage : Stage) (e : String) (h : stage.InClosure) :
    Moves path pid contents fs stage (.failed e) fs (.removeTemporary (.io e))
  | removed (e : Error) :
    Moves path pid contents fs (.removeTemporary e) .ok (fs.remove (temporary path pid)) (.returned (.error e))
  | left (e : Error) (e' : String) :
    Moves path pid contents fs (.removeTemporary e) (.failed e') fs (.returned (.error e))

theorem moves_of_step (h : stage.step path pid contents fs event = some (fs', stage')) :
    Moves path pid contents fs stage event fs' stage' := by
  unfold step at h
  split at h
  case h_6 fd x rest n =>
    split at h
    case isTrue hn => cases h; subst hn; exact .wroteNothing ..
    case isFalse hn =>
      have ⟨hl, h⟩ := ite_none_right_eq_some.mp h
      cases h
      exact .wrote fd (x :: rest) n (Nat.pos_of_ne_zero hn) hl
  case h_12 =>
    have ⟨_, h⟩ := ite_none_right_eq_some.mp h
    cases h
    exact .permitted
  case h_14 =>
    have ⟨fs', hr, h⟩ := map_eq_some_iff.mp h
    cases h
    exact .renamed hr
  case h_18 => cases h
  all_goals cases h; constructor
  all_goals trivial

-- The temporary file belongs to the call and holds what it has written.
def Owns (path : Path) (pid : Nat) (contents : Bytes) (fs : Fs Path) : Stage → Prop
  | .writeAll fd rest =>
    fs.names.file (temporary path pid) = some fd.file ∧ fs.data fd.file ++ rest = contents ∧
      fd.offset = (fs.data fd.file).length
  | .flush fd => fs.names.file (temporary path pid) = some fd.file ∧ fs.data fd.file = contents
  | .syncAll fd => fs.names.file (temporary path pid) = some fd.file ∧ fs.data fd.file = contents
  | .setPermissions =>
    ∃ i, fs.names.file (temporary path pid) = some i ∧ fs.data i = contents ∧ fs.dirty i = false
  | .rename =>
    ∃ i, fs.names.file (temporary path pid) = some i ∧ fs.data i = contents ∧ fs.dirty i = false
  | _ => True

theorem Owns.of_moves (h : stage.Owns path pid contents fs) (hm : Moves path pid contents fs stage event fs' stage') :
    stage'.Owns path pid contents fs' := by
  cases hm
  case opened => exact ⟨Names.file_create _ _, by simp [Fs.openTruncate], by simp [Fs.openTruncate]⟩
  case wrote fd rest n _ hl =>
    obtain ⟨hf, hd, ho⟩ := h
    have hw : (fs.writeAt fd.file fd.offset (rest.take n)).data fd.file = fs.data fd.file ++ rest.take n := by
      rw [ho]
      exact (if_pos rfl).trans (overwrite_length _ _)
    refine ⟨hf, ?_, ?_⟩
    · rw [hw, List.append_assoc, List.take_append_drop, hd]
    · rw [hw, List.length_append, List.length_take_of_le hl, ← ho]
  case written fd => exact ⟨h.1, by simpa using h.2.1⟩
  case flushed => exact h
  case synced fd => exact ⟨fd.file, h.1, h.2, by simp [Fs.sync]⟩
  case permitted => exact h
  all_goals trivial

theorem Owns.local_of_moves (h : stage.Owns path pid contents fs)
    (hm : Moves path pid contents fs stage event fs' stage') :
    fs.Local (temporary path pid) fs' ∧ stage' ≠ .returned (.ok ()) ∨
      fs.rename (temporary path pid) path = some fs' ∧ stage = .rename ∧ stage' = .returned (.ok ()) := by
  cases hm
  case renamed hr => exact .inr ⟨hr, rfl, rfl⟩
  case opened => exact .inl ⟨.openTruncate fs, nofun⟩
  case wrote fd rest n _ _ => exact .inl ⟨.writeAt fs _ _ h.1, nofun⟩
  case synced => exact .inl ⟨.sync fs _, nofun⟩
  case removed => exact .inl ⟨.remove fs, nofun⟩
  all_goals exact .inl ⟨.refl fs, nofun⟩

end Stage

theorem mem_toOption_iff {ε α : Type*} {x : Except ε α} {a : α} : a ∈ x.toOption ↔ x = .ok a := by
  cases x <;> simp [Except.toOption]

def newText (toml : Toml) (previous : Option Bytes) : Job → Option Text
  | .save identity => (encode toml (.fromIdentity identity)).toOption
  | .saveMasqueCreds certPem keyPem issuedAt =>
    previous.bind fun bytes => (withMasqueCreds toml certPem keyPem issuedAt bytes).toOption

theorem Stage.start_eq (path : Path) : start path = .createDirAll ∨ start path = .openTemporary :=
  ite_eq_or_eq _ _ _

namespace Call

variable {job : Job} {disk : Disk Path} {c c' : Call}

-- Wherever the call stops, and whatever of it has reached the disk.
structure Atomic (toml : Toml) (path : Path) (job : Job) (disk : Disk Path) (c : Call) : Prop where
  old_or_new : ∀ after, c.fs.Survives after →
    after.read path = disk.read path ∨
      ∃ text ∈ newText toml (disk.read path) job, after.read path = some text.utf8
  old_of_error : ∀ e, c.pc.result = some (.error e) → ∀ after, c.fs.Survives after →
    after.read path = disk.read path

structure Before (toml : Toml) (path : Path) (pid : Nat) (job : Job) (disk : Disk Path) (c : Call) : Prop where
  keeps : c.fs.Keeps disk path
  text : ∀ text stage, c.pc = .writing text stage →
    text ∈ newText toml (disk.read path) job ∧ stage.Owns path pid text.utf8 c.fs

theorem Before.atomic (h : Before toml path pid job disk c) : Atomic toml path job disk c where
  old_or_new _ hs := .inl (h.keeps.read_eq hs)
  old_of_error _ _ _ hs := h.keeps.read_eq hs

theorem owns_start (path : Path) (pid : Nat) (contents : Bytes) (fs : Fs Path) :
    (Stage.start path).Owns path pid contents fs := by
  rcases Stage.start_eq path with h | h <;> (rw [h]; trivial)

theorem before_writePrivate (hk : fs.Keeps disk path) {r : Except Error Text}
    (hr : ∀ text, r = .ok text → text ∈ newText toml (disk.read path) job) :
    Before toml path pid job disk ⟨fs, .writePrivate path r⟩ := by
  refine ⟨hk, fun text stage h => ?_⟩
  cases r
  case error => cases h
  case ok => cases h; exact ⟨hr text rfl, owns_start path pid _ fs⟩

theorem before_start (toml : Toml) (path : Path) (pid : Nat) (job : Job) (disk : Disk Path) :
    Before toml path pid job disk (start toml path job disk) := by
  cases job
  case save identity =>
    refine before_writePrivate (Fs.keeps_mount disk path) fun text h => ?_
    simp [newText, h, Except.toOption]
  case saveMasqueCreds => exact ⟨Fs.keeps_mount disk path, nofun⟩

structure Saved (toml : Toml) (path : Path) (job : Job) (disk : Disk Path) (c : Call) : Prop where
  result : c.pc.result = some (.ok ())
  atomic : Atomic toml path job disk c
  read : ∃ text ∈ newText toml (disk.read path) job, c.fs.read path = some text.utf8

def Unsaved (c : Call) : Prop :=
  ∀ text, c.pc ≠ .writing text (.returned (.ok ()))

theorem unsaved_writePrivate (fs : Fs Path) (path : Path) (r : Except Error Text) : Unsaved ⟨fs, .writePrivate path r⟩ := by
  intro text h
  cases r
  case error => cases h
  case ok =>
    have hs := (Pc.writing.inj h).2
    rcases Stage.start_eq path with he | he <;> cases he.symm.trans hs

theorem unsaved_start (toml : Toml) (path : Path) (job : Job) (disk : Disk Path) : (start toml path job disk).Unsaved := by
  cases job
  case save => exact unsaved_writePrivate _ path _
  case saveMasqueCreds => nofun

theorem before_or_saved_step (h : Before toml path pid job disk c) (hs : c.step toml path pid job event = some c') :
    Before toml path pid job disk c' ∧ c'.Unsaved ∨ Saved toml path job disk c' := by
  obtain ⟨fs, pc⟩ := c
  obtain ⟨⟨fs', pc'⟩, hp, he⟩ := map_eq_some_iff.mp hs
  subst he
  have idle {pc' : Pc} (hn : ∀ text stage, pc' ≠ .writing text stage) :
      Before toml path pid job disk ⟨fs, pc'⟩ ∧ Unsaved ⟨fs, pc'⟩ :=
    ⟨⟨h.keeps, fun text stage he => absurd he (hn text stage)⟩, fun text => hn text _⟩
  cases pc
  case checkExists =>
    left
    cases event
    case ok =>
      simp only [Pc.step] at hp
      split at hp <;> (cases hp; exact idle (by simp))
    case failed => cases hp; exact idle (by simp)
    case wrote => cases hp
  case readToString =>
    left
    cases event
    case ok =>
      simp only [Pc.step] at hp
      split at hp
      case h_1 bytes certPem keyPem issuedAt hr =>
        cases hp
        refine ⟨before_writePrivate h.keeps fun text ht => ?_, unsaved_writePrivate _ _ _⟩
        rw [← h.keeps.read_eq (.refl fs), hr]
        simp [newText, ht, Except.toOption]
      case h_2 => cases hp
    case failed => cases hp; exact idle (by simp)
    case wrote => cases hp
  case writing text stage =>
    obtain ⟨⟨fs₁, stage'⟩, hm, he⟩ := map_eq_some_iff.mp hp
    cases he
    obtain ⟨ht, ho⟩ := h.text text stage rfl
    have hm := Stage.moves_of_step hm
    rcases ho.local_of_moves hm with ⟨hl, hn⟩ | ⟨hr, rfl, rfl⟩
    · left
      refine ⟨⟨h.keeps.of_local hl (temporary_ne path pid), fun text' stage'' he => ?_⟩, fun text' he => ?_⟩
      · cases he
        exact ⟨ht, ho.of_moves hm⟩
      · cases he
        exact hn rfl
    · right
      obtain ⟨i, hi, hd, hc⟩ := ho
      have hread : fs'.read path = some text.utf8 := by rw [Fs.read_rename hr, Disk.read, hi, map_some, hd]
      refine ⟨rfl, ⟨fun after hs => ?_, fun e he => ?_⟩, text, ht, hread⟩
      · exact (h.keeps.rename hi hc hr hs).imp_right fun h => ⟨text, ht, hd ▸ h⟩
      · cases he
  case failed => cases hp
  case absent => cases hp

theorem step_of_result {r : Except Error Unit} (h : c.pc.result = some r) : c.step toml path pid job event = none := by
  obtain ⟨fs, pc⟩ := c
  change pc.result = some r at h
  unfold Pc.result at h
  split at h
  case h_1 => cases event <;> rfl
  case h_2 => cases event <;> rfl
  case h_3 => cases event <;> rfl
  case h_4 => cases h

theorem before_or_saved_of_exec {events : List Event}
    (hx : Lts.exec (step toml path pid job) (start toml path job disk) events = some c) :
    Before toml path pid job disk c ∧ c.Unsaved ∨ Saved toml path job disk c := by
  refine Lts.exec_invariant (I := fun c => Before toml path pid job disk c ∧ c.Unsaved ∨ Saved toml path job disk c)
    (fun c event c' h hs => ?_) (.inl ⟨before_start toml path pid job disk, unsaved_start toml path job disk⟩) hx
  rcases h with h | h
  · exact before_or_saved_step h.1 hs
  · rw [step_of_result h.result] at hs
    cases hs

theorem atomic_of_exec {events : List Event}
    (hx : Lts.exec (step toml path pid job) (start toml path job disk) events = some c) : Atomic toml path job disk c := by
  rcases before_or_saved_of_exec hx with h | h
  · exact h.1.atomic
  · exact h.atomic

theorem always_atomic (toml : Toml) (path : Path) (pid : Nat) (job : Job) (disk : Disk Path) (events : List Event) :
    Lts.Always (step toml path pid job) (Atomic toml path job disk) (start toml path job disk) events :=
  Lts.always_iff.mpr fun _ _ _ _ hx => atomic_of_exec hx

end Call

end Engine.Config
