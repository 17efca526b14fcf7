import SoildTunnel.App.UsageStore
import SoildTunnel.Lib.Lts

-- What is in the history after any number of sessions, restarts and kills.
namespace App.UsageStore

open Lts List Option

namespace Store

variable {u : Store}

theorem history_mk (l : List Session) (current : Option JSONObject) : history ⟨some (l.map toJson), current⟩ = l := by
  have h : (l.map toJson).mapM fromJson = some l := by
    induction l
    case nil => rfl
    case cons s l ih =>
      rw [map_cons, mapM_cons, ih]
      rfl
  rw [history, getD_some, h, getD_some]

def stored (u : Store) (s : Session) : Store :=
  { u.apply { u.prefs with current := some (toJson s) } with current := some s }

def finalized (u : Store) (s : Session) : Store :=
  { u.apply ⟨some (((s :: history u.prefs).take MAX_SESSIONS).map toJson), none⟩ with current := none }

def dropped (u : Store) : Store :=
  { u.apply { u.prefs with current := none } with current := none }

theorem accumulate_eq (r : Reading) : u.accumulate r = u.current.elim u fun s =>
      u.stored { s with rxBytes := max s.rxBytes r.down, txBytes := max s.txBytes r.up } := by
  unfold accumulate
  cases u.current <;> rfl

theorem startSession_eq (staleEnd now : Int) : u.startSession staleEnd now =
      let v := u.liveSession.elim u fun s =>
        if s.rxBytes > 0 ∨ s.txBytes > 0 then u.finalized { s with endedAt := staleEnd } else u
      stored { v with starts := v.starts ++ [now] } ⟨now, 0, 0, 0⟩ := by
  unfold startSession
  cases u.liveSession <;> rfl

theorem endSession_eq (r : Reading) (now : Int) : u.endSession r now =
      let v := u.accumulate r
      v.current.elim v fun s =>
        if s.rxBytes > 0 ∨ s.txBytes > 0 then v.finalized { s with endedAt := now } else v.dropped := by
  unfold endSession
  dsimp only
  cases (u.accumulate r).current <;> rfl

end Store

open Store

-- What the store is for: the sessions that had traffic, the latest one first, each with the most that
-- was ever read in it.
structure Ledger where
  finished : List Session := []
  live : Option (Int × List Reading) := none

def peak (f : Reading → Int) (readings : List Reading) : Int :=
  (readings.map f).foldl max 0

def session (startedAt endedAt : Int) (readings : List Reading) : Session :=
  ⟨startedAt, endedAt, peak Reading.down readings, peak Reading.up readings⟩

namespace Ledger

def finish (g : Ledger) (now : Int) : List Session :=
  g.live.elim g.finished fun (start, readings) =>
    let s := session start now readings
    if s.rxBytes > 0 ∨ s.txBytes > 0 then s :: g.finished else g.finished

def read (g : Ledger) (r : Reading) : Ledger :=
  { g with live := g.live.map fun (start, readings) => (start, readings ++ [r]) }

def call (g : Ledger) : Call → Ledger
  | .startSession staleEnd now => ⟨g.finish staleEnd, some (now, [])⟩
  | .accumulate r => g.read r
  | .endSession r now => ⟨(g.read r).finish now, none⟩
  | .restart => g

end Ledger

structure Rep (u : Store) (g : Ledger) : Prop where
  current : u.current = g.live.map fun x => session x.1 0 x.2
  loaded : loadCurrent u.prefs = u.current
  history : history u.prefs = g.finished.take MAX_SESSIONS

namespace Rep

variable {u : Store} {g : Ledger}

theorem finalized (h : Rep u g) (s : Session) : Rep (u.finalized s) ⟨s :: g.finished, none⟩ where
  current := rfl
  loaded := rfl
  history := by
    refine (history_mk _ none).trans ?_
    rw [h.history]
    simp [MAX_SESSIONS, take_take]

theorem accumulate (h : Rep u g) (r : Reading) : Rep (u.accumulate r) (g.read r) := by
  have hc := h.current
  rw [accumulate_eq, Ledger.read]
  cases hl : g.live
  case none =>
    rw [hl] at hc
    rw [hc]
    exact ⟨hc, h.loaded, h.history⟩
  case some x =>
    rw [hl] at hc
    rw [hc]
    refine ⟨?_, rfl, h.history⟩
    simp [stored, session, peak]

-- The open session goes into the history or, without any traffic, nowhere.
theorem finish (h : Rep u g) (now : Int) : (u.current = none ∧ g.finish now = g.finished) ∨
      ∃ s, u.current = some s ∧ s.endedAt = 0 ∧ g.finish now =
        if s.rxBytes > 0 ∨ s.txBytes > 0 then { s with endedAt := now } :: g.finished else g.finished := by
  rw [h.current, Ledger.finish]
  cases g.live
  case none => exact .inl ⟨rfl, rfl⟩
  case some x => exact .inr ⟨_, rfl, rfl, rfl⟩

theorem startSession (h : Rep u g) (staleEnd now : Int) :
    Rep (u.startSession staleEnd now) ⟨g.finish staleEnd, some (now, [])⟩ := by
  rw [startSession_eq, liveSession]
  refine ⟨rfl, rfl, ?_⟩
  obtain ⟨hc, hf⟩ | ⟨s, hc, he, hf⟩ := h.finish staleEnd
  case inl =>
    rw [hc, hf]
    exact h.history
  case inr =>
    rw [hc, hf, filter_some_pos (by simpa using he), elim_some]
    split
    case isTrue => exact (h.finalized _).history
    case isFalse => exact h.history

theorem endSession (h : Rep u g) (r : Reading) (now : Int) :
    Rep (u.endSession r now) ⟨(g.read r).finish now, none⟩ := by
  have ha := h.accumulate r
  rw [endSession_eq]
  obtain ⟨hc, hf⟩ | ⟨s, hc, -, hf⟩ := ha.finish now
  case inl =>
    simp only [hc, hf, elim_none]
    exact ⟨hc, ha.loaded, ha.history⟩
  case inr =>
    simp only [hc, hf, elim_some]
    split
    case isTrue => exact ha.finalized _
    case isFalse => exact ⟨rfl, rfl, ha.history⟩

theorem call (h : Rep u g) (c : Call) : Rep (u.call c) (g.call c) := by
  cases c
  case startSession staleEnd now => exact h.startSession staleEnd now
  case accumulate r => exact h.accumulate r
  case endSession r now => exact h.endSession r now
  case restart => exact ⟨h.loaded.trans h.current, rfl, h.history⟩

theorem run (h : Rep u g) (calls : List Call) : Rep (calls.foldl Store.call u) (calls.foldl Ledger.call g) := by
  induction calls generalizing u g
  case nil => exact h
  case cons c calls ih => exact ih (h.call c)

end Rep

-- A restart changes nothing, wherever it comes between the calls.
theorem history_run (calls : List Call) :
    let u := calls.foldl Store.call {}
    let g := calls.foldl Ledger.call {}
    history u.prefs = g.finished.take MAX_SESSIONS ∧
      u.liveSession = g.live.map fun (start, readings) => session start 0 readings := by
  have h : Rep (calls.foldl Store.call {}) (calls.foldl Ledger.call {}) := Rep.run ⟨rfl, rfl, rfl⟩ calls
  refine ⟨h.history, ?_⟩
  rw [liveSession, h.current]
  cases (calls.foldl Ledger.call {}).live <;> rfl

def times (p : Prefs) : List Int :=
  ((loadCurrent p).toList ++ history p).map (·.startedAt)

-- Whatever a kill leaves behind has no session more often than it was started.
structure Inv (u : Store) : Prop where
  loaded : loadCurrent u.prefs = u.current
  mem : u.prefs ∈ u.written
  fits : ∀ p ∈ u.written, times p <+~ u.starts

namespace Inv

variable {u u' : Store} {e : Event} {p : Prefs}

theorem listed (h : Inv u) : (history u.prefs).map (·.startedAt) <+~ u.starts :=
  ((sublist_append_right _ _).map _).subperm.trans (h.fits _ h.mem)

theorem apply (h : Inv u) (hp : times p <+~ u.starts) : Inv { u.apply p with current := loadCurrent p } where
  loaded := rfl
  mem := mem_append_right _ (mem_singleton_self p)
  fits := forall_mem_append.mpr ⟨h.fits, forall_mem_singleton.mpr hp⟩

theorem init (h : Inv u) (hp : p ∈ u.written) : Inv (u.init p) :=
  ⟨rfl, mem_singleton_self p, forall_mem_singleton.mpr (h.fits p hp)⟩

theorem finalized (h : Inv u) {s s' : Session} (hs : u.current = some s) (he : s'.startedAt = s.startedAt) :
    Inv (u.finalized s') := by
  refine h.apply (.trans (Sublist.subperm ?_) (h.fits _ h.mem))
  change ([] ++ history ⟨some _, none⟩).map _ <+ _
  rw [times, h.loaded, hs, history_mk, nil_append, map_take]
  simpa [he] using take_sublist MAX_SESSIONS _

theorem accumulate (h : Inv u) (r : Reading) : Inv (u.accumulate r) := by
  rw [accumulate_eq]
  cases hc : u.current
  case none => exact h
  case some s =>
    have hf := h.fits _ h.mem
    rw [times, h.loaded, hc] at hf
    exact h.apply hf

theorem startSession (h : Inv u) (staleEnd now : Int) : Inv (u.startSession staleEnd now) := by
  rw [startSession_eq]
  extract_lets v
  have hv : Inv v := by
    cases hl : u.liveSession
    case none => simpa only [v, hl, elim_none] using h
    case some s =>
      simp only [v, hl, elim_some]
      split
      case isTrue => exact h.finalized (filter_eq_some_iff.mp hl).1 rfl
      case isFalse => exact h
  have hn : Inv { v with starts := v.starts ++ [now] } :=
    ⟨hv.loaded, hv.mem, fun p hp => (hv.fits p hp).trans (sublist_append_left ..).subperm⟩
  exact hn.apply (((subperm_cons now).mpr hv.listed).trans (perm_append_singleton now _).symm.subperm)

theorem endSession (h : Inv u) (r : Reading) (now : Int) : Inv (u.endSession r now) := by
  have ha := h.accumulate r
  rw [endSession_eq]
  extract_lets v
  cases hc : v.current
  case none => exact ha
  case some s =>
    rw [elim_some]
    split
    case isTrue => exact ha.finalized hc rfl
    case isFalse => exact ha.apply ha.listed

theorem step (h : Inv u) (hs : step u e = some u') : Inv u' := by
  cases e
  case kill k =>
    obtain ⟨p, hp, rfl⟩ := map_eq_some_iff.mp hs
    exact h.init (mem_of_getElem? hp)
  case call c =>
    cases hs
    cases c
    case startSession staleEnd now => exact h.startSession staleEnd now
    case accumulate r => exact h.accumulate r
    case endSession r now => exact h.endSession r now
    case restart => exact h.init h.mem

end Inv

-- No kill makes a session come twice, whatever it loses.
theorem always_once (events : List Event) :
    Always step (fun u => (history u.prefs).map (·.startedAt) <+~ u.starts) {} events := by
  refine always_iff.mpr fun past _ u _ hx => ?_
  have h₀ : Inv {} := ⟨rfl, mem_singleton_self _, forall_mem_singleton.mpr (Subperm.refl _)⟩
  have h := exec_invariant (fun _ _ _ hi hs => Inv.step hi hs) h₀ hx
  exact h.listed

end App.UsageStore
