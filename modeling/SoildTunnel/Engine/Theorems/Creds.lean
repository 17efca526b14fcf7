import SoildTunnel.Engine.Theorems.Provision

-- What a file keeps of an identity when it is read again, and when only its certificate is replaced.
namespace Engine.Config.Call

open Rust Files

-- The call can still succeed.
def Completes (toml : Toml) (path : Path) (pid : Nat) (job : Job) (c : Call) : Prop :=
  ∃ events c', Lts.exec (step toml path pid job) c events = some c' ∧ c'.pc.result = some (.ok ())

variable {toml : Toml} {path : Path} {pid : Nat} {job : Job} {fs : Fs Path} {text : Text} {i : Nat} {c c' : Call}

theorem Completes.of_step (h : Completes toml path pid job c') (event : Event) (hs : c.step toml path pid job event = some c') :
    Completes toml path pid job c := by
  obtain ⟨events, c'', hx, hr⟩ := h
  exact ⟨event :: events, c'', by rw [Lts.exec_cons, hs]; exact hx, hr⟩

theorem completes_renamed (h : fs.names.file (temporary path pid) = some i) :
    Completes toml path pid job ⟨fs, .writing text .rename⟩ := by
  have hr : ∃ fs', fs.rename (temporary path pid) path = some fs' := by
    unfold Fs.rename Names.rename
    split
    case h_1 => exact ⟨_, rfl⟩
    case h_2 hn => cases h.symm.trans hn
  obtain ⟨fs', hr⟩ := hr
  exact ⟨[.ok], ⟨fs', .writing text (.returned (.ok ()))⟩, by simp [step, Pc.step, Stage.step, hr], rfl⟩

theorem completes_writeAll (fd : Fd) (rest : Bytes) (h : fs.names.file (temporary path pid) = some i) :
    Completes toml path pid job ⟨fs, .writing text (.writeAll fd rest)⟩ := by
  have hempty (fs : Fs Path) (fd : Fd) (h : fs.names.file (temporary path pid) = some i) :
      Completes toml path pid job ⟨fs, .writing text (.writeAll fd [])⟩ := by
    have hr : Completes toml path pid job ⟨fs.sync fd.file, .writing text .rename⟩ := completes_renamed h
    have hp : step toml path pid job ⟨fs.sync fd.file, .writing text .setPermissions⟩ .ok =
        some ⟨fs.sync fd.file, .writing text .rename⟩ := by
      simp [step, Pc.step, Stage.step, Fs.sync, h]
    exact (((hr.of_step .ok hp).of_step .ok rfl).of_step .ok rfl).of_step .ok rfl
  cases rest
  case nil => exact hempty fs fd h
  case cons x rest =>
    have hw := hempty (fs.writeAt fd.file fd.offset (x :: rest)) ⟨fd.file, fd.offset + (x :: rest).length⟩ h
    exact hw.of_step (.wrote (x :: rest).length) (by simp [step, Pc.step, Stage.step])

theorem completes_start (fs : Fs Path) (text : Text) : Completes toml path pid job ⟨fs, .writing text (.start path)⟩ := by
  have ho : Completes toml path pid job ⟨fs, .writing text .openTemporary⟩ := by
    let opened := fs.openTruncate (temporary path pid)
    have hw : Completes toml path pid job ⟨opened.1, .writing text (.writeAll ⟨opened.2, 0⟩ text.utf8)⟩ :=
      completes_writeAll _ _ (Names.file_create fs.names (temporary path pid))
    exact hw.of_step .ok rfl
  rcases Stage.start_eq path with h | h
  · rw [h]
    exact ho.of_step .ok rfl
  · rw [h]
    exact ho

section Masque

variable {disk : Disk Path} {certPem keyPem : Bytes} {issuedAt : UInt64}

theorem step_start (h : (disk.read path).isSome) :
    step toml path pid (.saveMasqueCreds certPem keyPem issuedAt) (start toml path (.saveMasqueCreds certPem keyPem issuedAt) disk)
      .ok = some ⟨disk.mount, .readToString⟩ := by
  have hr : (disk.mount.read path).isSome := h
  simp [step, start, Pc.start, Pc.step, hr]

theorem completes_readToString (pid : Nat) (h : text ∈ newText toml (disk.read path) (.saveMasqueCreds certPem keyPem issuedAt)) :
    Completes toml path pid (.saveMasqueCreds certPem keyPem issuedAt) ⟨disk.mount, .readToString⟩ := by
  obtain ⟨bytes, hb, ht⟩ := Option.bind_eq_some_iff.mp h
  have hr : disk.mount.read path = some bytes := hb
  refine (completes_start disk.mount text).of_step .ok ?_
  simp [step, Pc.step, hr, mem_toOption_iff.mp ht, Pc.writePrivate]

theorem writePrivate_ne_absent (path : Path) (r : Except Error Text) :
    Pc.writePrivate path r ≠ .checkExists ∧ Pc.writePrivate path r ≠ .absent := by
  cases r <;> exact ⟨nofun, nofun⟩

theorem ne_absent_of_step {event : Event} (h : c.pc ≠ .checkExists) (hs : c.step toml path pid job event = some c') :
    c'.pc ≠ .checkExists ∧ c'.pc ≠ .absent := by
  obtain ⟨fs, pc⟩ := c
  obtain ⟨⟨fs', pc'⟩, hp, he⟩ := Option.map_eq_some_iff.mp hs
  subst he
  cases pc
  case checkExists => exact absurd rfl h
  case readToString =>
    cases event
    case ok =>
      simp only [Pc.step] at hp
      split at hp
      case h_1 => cases hp; exact writePrivate_ne_absent path _
      case h_2 => cases hp
    case failed => cases hp; simp
    case wrote => cases hp
  case writing =>
    obtain ⟨_, _, he⟩ := Option.map_eq_some_iff.mp hp
    cases he
    simp
  case failed => cases hp
  case absent => cases hp

theorem ne_absent_of_exec {events : List Event} (hx : Lts.exec (step toml path pid job) ⟨fs, .readToString⟩ events = some c) :
    c.pc ≠ .absent :=
  (Lts.exec_invariant (I := fun c => c.pc ≠ .checkExists ∧ c.pc ≠ .absent) (fun _ _ _ h hs => ne_absent_of_step h.1 hs)
    (show Pc.readToString ≠ .checkExists ∧ Pc.readToString ≠ .absent from ⟨nofun, nofun⟩) hx).2

theorem not_ok_of_unsaved (h : c.Unsaved) (hn : c.pc ≠ .absent) : c.pc.result ≠ some (.ok ()) := by
  intro hr
  unfold Pc.result at hr
  split at hr
  case h_1 text result hp =>
    cases hr
    exact h text hp
  case h_2 => cases hr
  case h_3 hp => exact hn hp
  case h_4 => cases hr

end Masque

end Engine.Config.Call

namespace Engine.Provision

open Rust Files

-- New credentials, as the file keeps them. Text stays as it is.
def Identity.withMasqueCreds (identity : Identity) (certPem keyPem : Bytes) (issuedAt : UInt64) : Identity :=
  { identity with
    certPem := (Text.fromUtf8Lossy certPem).utf8
    keyPem := (Text.fromUtf8Lossy keyPem).utf8
    certIssuedAt := issuedAt }

variable {toml : Config.Toml} {base64 : Base64} {identity : Identity} {certPem keyPem : Bytes} {issuedAt : UInt64}

section Load

variable {persisted : Config.PersistedIdentity}

theorem tryFrom_withMasqueCreds (h : Identity.tryFrom base64 persisted = .ok identity) :
    Identity.tryFrom base64 { persisted with
      certPem := Text.fromUtf8Lossy certPem
      keyPem := Text.fromUtf8Lossy keyPem
      certIssuedAt := issuedAt } = .ok (identity.withMasqueCreds certPem keyPem issuedAt) := by
  unfold Identity.tryFrom at h ⊢
  cases hw : decodeFixed base64 32 "wg_private_key" persisted.wgPrivateKey
  case error => simp [hw, bind, Except.bind] at h
  case ok =>
    cases hp : decodeFixed base64 32 "wg_peer_public_key" persisted.wgPeerPublicKey
    case error => simp [hw, hp, bind, Except.bind] at h
    case ok =>
      simp only [hw, hp, bind, Except.bind, pure, Except.pure, Except.ok.injEq] at h ⊢
      subst h
      rfl

theorem load_of_newText (reads : Reads toml base64) {file : Option Bytes} (h : load toml base64 file = .identity identity)
    {text : Text} (ht : text ∈ Config.newText toml file (.saveMasqueCreds certPem keyPem issuedAt)) :
    load toml base64 (some text.utf8) = .identity (identity.withMasqueCreds certPem keyPem issuedAt) := by
  obtain ⟨bytes, old, persisted, rfl, hu, hp, hr⟩ := exists_of_load h
  have he : Config.withMasqueCreds toml certPem keyPem issuedAt bytes = .ok text := Config.mem_toOption_iff.mp ht
  simp only [Config.withMasqueCreds, hu, hp] at he
  exact load_eq_of_encode reads he (tryFrom_withMasqueCreds hr)

end Load

-- A call of `save_masque_creds` that sees the file, where `exists` does not fail: it replaces the
-- credentials or returns an error, and it can succeed if the new text can be made.
structure Replaces (toml : Config.Toml) (base64 : Base64) (path : Path) (pid : Nat) (disk : Disk Path) (identity : Identity)
    (certPem keyPem : Bytes) (issuedAt : UInt64) : Prop where
  ok : ∀ events c, Lts.exec (Config.Call.step toml path pid (.saveMasqueCreds certPem keyPem issuedAt))
      (.start toml path (.saveMasqueCreds certPem keyPem issuedAt) disk) (.ok :: events) = some c →
    c.pc.result = some (.ok ()) → load toml base64 (c.fs.read path) = .identity (identity.withMasqueCreds certPem keyPem issuedAt)
  error : ∀ events c e, Lts.exec (Config.Call.step toml path pid (.saveMasqueCreds certPem keyPem issuedAt))
      (.start toml path (.saveMasqueCreds certPem keyPem issuedAt) disk) (.ok :: events) = some c →
    c.pc.result = some (.error e) → load toml base64 (c.fs.read path) = .identity identity
  returns : Config.newText toml (disk.read path) (.saveMasqueCreds certPem keyPem issuedAt) ≠ none →
    ∃ events c, Lts.exec (Config.Call.step toml path pid (.saveMasqueCreds certPem keyPem issuedAt))
        (.start toml path (.saveMasqueCreds certPem keyPem issuedAt) disk) (.ok :: events) = some c ∧
      c.pc.result = some (.ok ())

structure RoundTrip (toml : Config.Toml) (base64 : Base64) : Prop where
  tryFrom : ∀ identity : Identity, identity.Textual →
    Identity.tryFrom base64 (.fromIdentity identity.toIdentity) = .ok { identity with refused := false }
  replaces : ∀ path pid disk identity certPem keyPem issuedAt, load toml base64 (disk.read path) = .identity identity →
    Replaces toml base64 path pid disk identity certPem keyPem issuedAt

theorem replaces_of_load (reads : Reads toml base64) {path : Path} {disk : Disk Path} (pid : Nat)
    (h : load toml base64 (disk.read path) = .identity identity) (certPem keyPem : Bytes) (issuedAt : UInt64) :
    Replaces toml base64 path pid disk identity certPem keyPem issuedAt := by
  obtain ⟨bytes, -, -, hb, -⟩ := exists_of_load h
  have hstart : Config.Call.step toml path pid (.saveMasqueCreds certPem keyPem issuedAt)
      (.start toml path (.saveMasqueCreds certPem keyPem issuedAt) disk) .ok = some ⟨disk.mount, .readToString⟩ :=
    Config.Call.step_start (by simp [hb])
  constructor
  case ok =>
    intro events c hx hr
    rcases Config.Call.before_or_saved_of_exec hx with ⟨-, hu⟩ | hs
    · rw [Lts.exec_cons, hstart] at hx
      exact absurd hr (Config.Call.not_ok_of_unsaved hu (Config.Call.ne_absent_of_exec hx))
    · obtain ⟨text, ht, hread⟩ := hs.read
      rw [hread]
      exact load_of_newText reads h ht
  case error =>
    intro events c e hx hr
    rw [(Config.Call.atomic_of_exec hx).old_of_error e hr _ (.refl _)]
    exact h
  case returns =>
    intro hn
    obtain ⟨text, ht⟩ := Option.ne_none_iff_exists'.mp hn
    obtain ⟨events, c, hx, hr⟩ := Config.Call.completes_readToString pid ht
    exact ⟨events, c, by rw [Lts.exec_cons, hstart]; exact hx, hr⟩

theorem roundTrip_of_reads (reads : Reads toml base64) : RoundTrip toml base64 where
  tryFrom _ ht := tryFrom_fromIdentity reads ht
  replaces _ pid _ _ certPem keyPem issuedAt h := replaces_of_load reads pid h certPem keyPem issuedAt

theorem roundTrip_twoFiles : Reads twoFiles Base64.standard ∧ RoundTrip twoFiles Base64.standard :=
  ⟨reads_twoFiles, roundTrip_of_reads reads_twoFiles⟩

end Engine.Provision
