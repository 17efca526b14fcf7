import SoildTunnel.App.DnsMap

-- What the cache of names knows of an address, and when it has forgotten it.
namespace App.DnsMap

open Kotlin List Function
open TunBridge (Platform)

section Entries

variable {κ : Type*} [DecidableEq κ]

-- The addresses that were used after the last use of one; the latest use comes first.
def since (used : List κ) (ip : κ) : List κ :=
  (used.takeWhile (· ≠ ip)).dedup

-- The cache knows the latest name of each address, unless its time is over or the address had to make room.
structure Kept (last : κ → Option (Text × Nat)) (used : List κ) (now : Nat) (m : Cache κ) : Prop where
  present : ∀ x ∈ m.items, ∃ d t, last x.1 = some (d, t) ∧ t ≤ now ∧ x.2.getLast? = some ⟨d, t + DEFAULT_TTL_MILLIS⟩ ∧
    (∀ e ∈ x.2, e.expiresAt ≤ t + DEFAULT_TTL_MILLIS) ∧ x.2.length ≤ 8
  absent : ∀ ip d t, ip ∉ m.keys → last ip = some (d, t) →
    t + DEFAULT_TTL_MILLIS ≤ now ∨ MAX_ENTRIES ≤ (since used ip).length
  order : m.keys.Pairwise fun ip x => x ∈ since used ip

variable {last last' : κ → Option (Text × Nat)} {used : List κ} {now now' : Nat} {m : Cache κ} {ip : κ} {d : Text}

theorem since_cons {j : κ} (h : j ≠ ip) : since (j :: used) ip = (j :: used.takeWhile (· ≠ ip)).dedup := by
  rw [since, takeWhile_cons_of_pos (by simpa using h)]

theorem since_subset {j : κ} (h : j ≠ ip) : since used ip ⊆ since (j :: used) ip := by
  intro x hx
  rw [since_cons h, mem_dedup]
  exact mem_cons_of_mem _ (mem_dedup.mp hx)

theorem Kept.empty : Kept (fun _ : κ => none) [] 0 .empty where
  present _ h := by cases h
  absent _ _ _ _ h := by cases h
  order := .nil

theorem Kept.later (h : Kept last used now m) (hn : now ≤ now') : Kept last used now' m where
  present x hx := by
    obtain ⟨d, t, hl, ht, hx⟩ := h.present x hx
    exact ⟨d, t, hl, ht.trans hn, hx⟩
  absent ip d t hm hl := (h.absent ip d t hm hl).imp_left hn.trans'
  order := h.order

theorem Kept.erase (h : Kept last used now m) (he : ∀ d t, last ip = some (d, t) → t + DEFAULT_TTL_MILLIS ≤ now) :
    Kept last used now (m.erase ip) where
  present x hx := h.present x (mem_of_mem_filter hx)
  absent ip' d t hm hl := by
    by_cases hi : ip' = ip
    case pos => exact .inl (he d t (hi ▸ hl))
    case neg =>
      refine h.absent ip' d t (fun hk => hm ?_) hl
      obtain ⟨x, hx, rfl⟩ := mem_map.mp hk
      exact mem_map_of_mem (mem_filter.mpr ⟨hx, decide_eq_true hi⟩)
  order := h.order.sublist (filter_sublist.map Prod.fst)

theorem Kept.use (h : Kept last used now m) {es : List Entry} {t : Nat} (hl : last' ip = some (d, t)) (ht : t ≤ now)
    (hne : ∀ ip' ≠ ip, last' ip' = last ip') (hlast : es.getLast? = some ⟨d, t + DEFAULT_TTL_MILLIS⟩)
    (he : ∀ e ∈ es, e.expiresAt ≤ t + DEFAULT_TTL_MILLIS) (hlen : es.length ≤ 8) :
    Kept last' (ip :: used) now (m.put ip es) where
  present x hx := by
    obtain hx | hx := mem_append.mp (Lru.items_put_sublist.subset hx)
    case inl =>
      obtain ⟨hx, hn⟩ := mem_filter.mp hx
      rw [hne x.1 (of_decide_eq_true hn)]
      exact h.present x hx
    case inr =>
      rw [mem_singleton.mp hx]
      exact ⟨d, t, hl, ht, hlast, he, hlen⟩
  absent ip' d' t' hm hl' := by
    have hi : ip' ≠ ip := by
      rintro rfl
      exact hm (Lru.mem_keys_put_self (by decide))
    rw [hne ip' hi] at hl'
    by_cases hk : ip' ∈ m.keys
    case neg =>
      refine (h.absent ip' d' t' hk hl').imp_right fun hc => hc.trans ?_
      exact ((nodup_dedup _).subperm (since_subset (Ne.symm hi))).length_le
    case pos =>
      obtain ⟨rest, hkeys, hn, hcap⟩ := Lru.keys_of_evicted hk hi hm
      have ho := h.order
      have hnd : m.keys.Nodup := m.nodup
      rw [hkeys, pairwise_cons] at ho
      rw [hkeys, nodup_cons] at hnd
      rw [hkeys] at hn
      have hsub : ip :: rest ⊆ since (ip :: used) ip' := by
        refine cons_subset.mpr ⟨?_, fun x hx => since_subset (Ne.symm hi) (ho.1 x hx)⟩
        rw [since_cons (Ne.symm hi), mem_dedup]
        exact mem_cons_self
      have hnd : (ip :: rest).Nodup := nodup_cons.mpr ⟨fun hr => hn (mem_cons_of_mem _ hr), hnd.2⟩
      exact .inr (hcap ▸ (hnd.subperm hsub).length_le)
  order := by
    refine List.Pairwise.sublist Lru.keys_put_sublist (pairwise_append.mpr ⟨?_, pairwise_singleton .., ?_⟩)
    · refine (h.order.sublist filter_sublist).imp_of_mem fun {k x} hk _ hx => ?_
      exact since_subset (Ne.symm (of_decide_eq_true (mem_filter.mp hk).2)) hx
    · intro k hk x hx
      rw [mem_singleton.mp hx, since_cons (Ne.symm (of_decide_eq_true (mem_filter.mp hk).2)), mem_dedup]
      exact mem_cons_self

theorem Kept.put (h : Kept last used now m) (ip : κ) (d : Text) :
    Kept (Function.update last ip (some (d, now))) (ip :: used) now (putEntry m ip d now) := by
  have hold : ∀ e ∈ (m.find? ip).getD [], e.expiresAt ≤ now + DEFAULT_TTL_MILLIS := by
    intro e he
    cases hf : m.find? ip
    case none => simp [hf] at he
    case some es =>
      obtain ⟨_, t, -, ht, -, hes, -⟩ := h.present _ (Lru.find?_eq_some.mp hf)
      exact (hes e (by simpa [hf] using he)).trans (Nat.add_le_add_right ht _)
  refine h.use (update_self ..) le_rfl (fun ip' hi => update_of_ne hi ..) ?_ (fun e he => ?_) ?_
  · rw [List.getLast?_drop]
    simp
    rfl
  · obtain he | he := mem_append.mp (mem_of_mem_drop he)
    case inl => exact hold e (mem_of_mem_filter he)
    case inr => exact (mem_singleton.mp he).symm ▸ le_rfl
  · rw [length_drop]
    omega

theorem Kept.get (h : Kept last used now m) (ip : κ) :
    (∃ d t, (get m ip now).2 = some d ∧ last ip = some (d, t) ∧ now < t + DEFAULT_TTL_MILLIS ∧
      Kept last (ip :: used) now (get m ip now).1) ∨
    (get m ip now).2 = none ∧ Kept last used now (get m ip now).1 ∧
      ∀ d t, last ip = some (d, t) → t + DEFAULT_TTL_MILLIS ≤ now ∨ MAX_ENTRIES ≤ (since used ip).length := by
  unfold DnsMap.get
  cases hf : m.find? ip
  case none => exact .inr ⟨rfl, h, fun d t => h.absent ip d t (Lru.find?_eq_none.mp hf)⟩
  case some es =>
    obtain ⟨d, t, hl, ht, hlast, hes, hlen⟩ := h.present _ (Lru.find?_eq_some.mp hf)
    by_cases hn : now < t + DEFAULT_TTL_MILLIS
    case pos =>
      have hk : (es.filter fun e => ¬ e.expiresAt ≤ now).getLast? = some ⟨d, t + DEFAULT_TTL_MILLIS⟩ := by
        obtain ⟨l, rfl⟩ := List.getLast?_eq_some_iff.mp hlast
        simp [filter_append, hn]
      simp only [hk]
      refine .inl ⟨d, t, rfl, hl, hn, h.use hl ht (fun _ _ => rfl) hk (fun e he => ?_) ?_⟩
      · exact hes e (mem_of_mem_filter he)
      · exact (length_filter_le ..).trans hlen
    -- The others expire no later than the latest entry.
    case neg =>
      have hk : (es.filter fun e => ¬ e.expiresAt ≤ now) = [] := by
        refine filter_eq_nil_iff.mpr fun e he => ?_
        have := hes e he
        simp
        omega
      have hx (d' : Text) (t' : Nat) (hl' : last ip = some (d', t')) : t' + DEFAULT_TTL_MILLIS ≤ now := by
        cases hl.symm.trans hl'
        omega
      simp only [hk, List.getLast?_nil]
      exact .inr ⟨trivial, h.erase hx, fun d' t' hl' => .inl (hx d' t' hl')⟩

end Entries

variable (pf : Platform)

-- The address that a call puts a name to, and the address that it uses: a successful read is a use.
def Call.effective? : Call → Option (Text × Text × Nat)
  | .put ip domain now =>
    if ip.trim = [] ∨ normalizedDomain pf domain = [] then none else some (ip.trim, normalizedDomain pf domain, now)
  | .get .. => none

def Call.used? (m : Cache Text) : Call → Option Text
  | .put ip domain now => (Call.effective? pf (.put ip domain now)).map (·.1)
  | .get ip now => (DnsMap.get m ip now).2.map fun _ => ip

theorem put_eq (pf : Platform) (m : Cache Text) (ip domain : Text) (now : Nat) : put pf m ip domain now =
    if ip.trim = [] ∨ normalizedDomain pf domain = [] then m
    else putEntry m ip.trim (normalizedDomain pf domain) now := by
  rw [ite_or]
  rfl

def lastPut (calls : List Call) (ip : Text) : Option (Text × Nat) :=
  (calls.filterMap (Call.effective? pf)).reverse.findSome? fun x => if x.1 = ip then some x.2 else none

structure Trace where
  cache : Cache Text := .empty
  -- The latest use comes first.
  used : List Text := []

def Trace.step (t : Trace) (c : Call) : Trace :=
  ⟨(DnsMap.step pf t.cache c).1, (c.used? pf t.cache).toList ++ t.used⟩

def Trace.run (calls : List Call) : Trace :=
  calls.foldl (Trace.step pf) {}

theorem lastPut_concat (calls : List Call) (c : Call) : lastPut pf (calls ++ [c]) =
      (c.effective? pf).elim (lastPut pf calls) fun x => Function.update (lastPut pf calls) x.1 (some x.2) := by
  funext ip
  rw [lastPut, filterMap_append]
  cases hc : c.effective? pf
  case none => simp [hc, lastPut]
  case some x =>
    by_cases hx : x.1 = ip
    case pos => simp [hc, hx]
    case neg => simp [hc, hx, update_of_ne (Ne.symm hx), lastPut]

theorem kept_run (calls : List Call) {now : Nat} (ht : (calls.map Call.now ++ [now]).Pairwise (· ≤ ·)) :
    Kept (lastPut pf calls) (Trace.run pf calls).used now (Trace.run pf calls).cache := by
  induction calls using List.reverseRecOn generalizing now
  case nil => exact Kept.empty.later (Nat.zero_le _)
  case append_singleton calls c ih =>
    rw [map_append, map_singleton, pairwise_append] at ht
    have hn : c.now ≤ now := ht.2.2 _ (by simp) _ (by simp)
    have h := ih ht.1
    refine Kept.later ?_ hn
    rw [Trace.run, foldl_append, lastPut_concat]
    change Kept _ (Trace.step pf (Trace.run pf calls) c).used _ (Trace.step pf (Trace.run pf calls) c).cache
    cases c
    case put ip domain t =>
      simp only [Trace.step, DnsMap.step, Call.used?, Call.effective?, put_eq]
      split
      case isTrue => exact h
      case isFalse => exact h.put ip.trim _
    case get ip t =>
      simp only [Trace.step, DnsMap.step, Call.used?, Call.effective?, Option.elim_none]
      change Kept _ _ t _ at h
      obtain ⟨d, _, hg, -, -, hk⟩ | ⟨hg, hk, -⟩ := h.get ip
      case inl => rw [hg]; exact hk
      case inr => rw [hg]; exact hk

theorem get_run (calls : List Call) (ip : Text) (now : Nat) (ht : (calls.map Call.now ++ [now]).Pairwise (· ≤ ·)) :
    (∀ d, (get (Trace.run pf calls).cache ip now).2 = some d →
      ∃ t, lastPut pf calls ip = some (d, t) ∧ now < t + DEFAULT_TTL_MILLIS) ∧
    ((get (Trace.run pf calls).cache ip now).2 = none → ∀ d t, lastPut pf calls ip = some (d, t) →
      t + DEFAULT_TTL_MILLIS ≤ now ∨ MAX_ENTRIES ≤ (since (Trace.run pf calls).used ip).length) ∧
    (Trace.run pf calls).cache.items.length ≤ MAX_ENTRIES ∧ ∀ x ∈ (Trace.run pf calls).cache.items, x.2.length ≤ 8 := by
  have hk := kept_run pf calls ht
  refine ⟨fun d hd => ?_, fun hn => ?_, (Trace.run pf calls).cache.length_le, fun x hx => ?_⟩
  · obtain ⟨d', t, hg, hl, hlt, -⟩ | ⟨hg, -⟩ := hk.get ip
    case inl => cases hg.symm.trans hd; exact ⟨t, hl, hlt⟩
    case inr => cases hg.symm.trans hd
  · obtain ⟨_, _, hg, -⟩ | ⟨-, -, h⟩ := hk.get ip
    case inl => cases hg.symm.trans hn
    case inr => exact h
  · obtain ⟨_, _, -, -, -, -, h⟩ := hk.present x hx
    exact h

def plain : Platform where
  decode _ := []
  lowercase t := t

theorem get_run_once :
    (get (Trace.run plain [.put (lit "1.1.1.1") (lit "a.example.") 0]).cache (lit "1.1.1.1") 299999).2 = some (lit "a.example") ∧
    ∃ t, lastPut plain [.put (lit "1.1.1.1") (lit "a.example.") 0] (lit "1.1.1.1") = some (lit "a.example", t) ∧
      299999 < t + DEFAULT_TTL_MILLIS :=
  ⟨by decide, (get_run plain _ _ 299999 (by decide)).1 _ (by decide)⟩

section Reads

open Text

def host (n : Nat) : Text :=
  lit "fe80:" ++ decimal n ++ lit "::1"

def entries : List Entry :=
  [⟨[97], DEFAULT_TTL_MILLIS⟩]

theorem host_injective : Function.Injective host := by
  intro a b h
  have hn := number_decimal a
  rw [append_cancel_left (append_cancel_right h), number_decimal] at hn
  exact (Option.some.inj hn).symm

theorem trim_host (n : Nat) : (host n).trim = host n := by
  have hl : (host n).getLast? = some 49 := by
    rw [host, List.getLast?_append]
    rfl
  refine Delimited.trim_eq_self_of_ends (by simp [host, lit, isWhitespace]) fun a ha => ?_
  cases hl.symm.trans ha
  decide

theorem effective_put (n : Nat) : Call.effective? plain (.put (host n) [97] 0) = some (host n, [97], 0) := by
  rw [Call.effective?, trim_host]
  exact if_neg (not_or.mpr ⟨by simp [host, lit], by decide⟩)

theorem put_host (m : Cache Text) (n : Nat) : put plain m (host n) [97] 0 = putEntry m (host n) [97] 0 := by
  rw [put_eq, trim_host]
  exact if_neg (not_or.mpr ⟨by simp [host, lit], by decide⟩)

variable {m : Cache Text} {k : Text}

theorem items_putEntry (hk : k ∉ m.keys) : (putEntry m k [97] 0).items =
    if m.items.length < MAX_ENTRIES then m.items ++ [(k, entries)] else (m.items ++ [(k, entries)]).tail := by
  have hf : m.items.filter (fun x => x.1 ≠ k) = m.items :=
    filter_eq_self.mpr fun x hx => decide_eq_true fun h => hk (h ▸ mem_map_of_mem hx)
  rw [putEntry, Lru.find?_eq_none.mpr hk, Lru.items_put, hf, length_append]
  rfl

theorem items_get {r : List (Text × List Entry)} (h : m.items = (k, entries) :: r) :
    (get m k 0).1.items = r ++ [(k, entries)] := by
  have hn := m.nodup
  have hl := m.length_le
  rw [h, map_cons, nodup_cons] at hn
  have hf : m.items.filter (fun x => x.1 ≠ k) = r := by
    rw [h, filter_cons_of_neg (by simp), filter_eq_self]
    exact fun x hx => decide_eq_true fun h => hn.1 (mem_map.mpr ⟨x, hx, h⟩)
  rw [get, Lru.find?_eq_some.mpr (h ▸ mem_cons_self)]
  change (m.put k entries).items = _
  rw [Lru.items_put, hf, if_pos (by simpa [h] using hl)]

def puts (l : List Nat) : List Call :=
  l.map fun n => .put (host n) [97] 0

def gets (l : List Nat) : List Call :=
  l.map fun n => .get (host n) 0

def filled (l : List Nat) : List (Text × List Entry) :=
  l.map fun n => (host n, entries)

variable {t : Trace}

theorem items_puts (l : List Nat) {d : List Nat} (ht : t.cache.items = filled d)
    (hn : (d ++ l).Nodup) (hl : (d ++ l).length ≤ MAX_ENTRIES) :
    ((puts l).foldl (Trace.step plain) t).cache.items = filled (d ++ l) := by
  induction l generalizing t d
  case nil => rw [append_nil]; exact ht
  case cons n l ih =>
    rw [← singleton_append, ← append_assoc] at hn hl ⊢
    refine ih ?_ hn hl
    have hk : host n ∉ t.cache.keys := by
      rw [Lru.keys, ht, filled, map_map, mem_map]
      rintro ⟨a, ha, he⟩
      have hd := (nodup_append.mp (nodup_append.mp hn).1).2.2 a ha n (mem_singleton_self n)
      exact hd (host_injective he)
    have hlt : (filled d).length < MAX_ENTRIES := by
      simp only [length_append, length_singleton] at hl
      rw [filled, length_map]
      omega
    change (put plain t.cache (host n) [97] 0).items = _
    rw [put_host, items_putEntry hk, ht, if_pos hlt, filled, filled, map_append]
    rfl

-- Reading all the others makes the one that is left the oldest.
theorem items_gets (l : List Nat) {r : List (Text × List Entry)} (ht : t.cache.items = filled l ++ r) :
    ((gets l).foldl (Trace.step plain) t).cache.items = r ++ filled l := by
  induction l generalizing t r
  case nil => exact ht.trans (append_nil _).symm
  case cons n l ih =>
    have h := items_get (r := filled l ++ r) (show t.cache.items = (host n, entries) :: _ from ht)
    refine (ih (r := r ++ [(host n, entries)]) (h.trans (append_assoc ..))).trans ?_
    rw [append_assoc]
    rfl

def reads : List Call :=
  gets (List.range' 2 4095) ++ puts [1]

theorem filterMap_gets (l : List Nat) : (gets l).filterMap (Call.effective? plain) = [] := by
  simp [gets, filterMap_map, Call.effective?]

theorem lastPut_reads (calls : List Call) : lastPut plain (calls ++ reads) (host 0) = lastPut plain calls (host 0) := by
  have hh : host 1 ≠ host 0 := fun h => absurd (host_injective h) (by decide)
  rw [reads, puts, ← append_assoc]
  simp only [map_singleton]
  rw [lastPut_concat, effective_put, Option.elim_some, update_of_ne (Ne.symm hh)]
  simp [lastPut, filterMap_gets]

theorem items_reads (ht : t.cache.items = filled (List.range' 2 4095 ++ [0])) :
    (reads.foldl (Trace.step plain) t).cache.items = filled (List.range' 2 4095 ++ [1]) := by
  have hg := items_gets (List.range' 2 4095) (r := filled [0]) (by rw [ht, filled, map_append]; rfl)
  rw [reads, foldl_append]
  generalize (gets (List.range' 2 4095)).foldl (Trace.step plain) t = t' at hg ⊢
  have hk : host 1 ∉ t'.cache.keys := by
    rw [Lru.keys, hg]
    simp only [filled, map_append, map_map, mem_append, mem_map, comp_def, not_or, not_exists,
      not_and]
    refine ⟨fun n hn h => ?_, fun n hn h => ?_⟩
    · rw [mem_singleton.mp hn] at h
      exact absurd (host_injective h) (by decide)
    · have hn := mem_range'_1.mp hn
      have := host_injective h
      omega
  change (put plain t'.cache (host 1) [97] 0).items = _
  have hlen : ¬ t'.cache.items.length < MAX_ENTRIES := by
    rw [hg]
    simp [filled, MAX_ENTRIES]
  rw [put_host, items_putEntry hk, if_neg hlen, hg]
  simp [filled]

theorem forgotten_after_reads :
    let calls := puts (List.range' 2 4095 ++ [0]) ++ reads
    (∀ c ∈ calls, c.now = 0) ∧ lastPut plain calls (host 0) = some ([97], 0) ∧
      (reads.filterMap (Call.effective? plain)).length = 1 ∧
      (get (Trace.run plain calls).cache (host 0) 0).2 = none := by
  intro calls
  refine ⟨?_, ?_, ?_, ?_⟩
  · simp [calls, puts, gets, reads, Call.now]
    grind
  · rw [lastPut_reads, puts, map_append, map_singleton, lastPut_concat, effective_put, Option.elim_some,
      update_self]
  · rw [reads, filterMap_append, filterMap_gets, puts, map_singleton, filterMap_cons, effective_put]
    rfl
  · have hn : (List.range' 2 4095 ++ [0]).Nodup :=
      nodup_append.mpr ⟨nodup_range', nodup_singleton 0, fun a ha b hb => by
        have := mem_range'_1.mp ha
        rw [mem_singleton.mp hb]
        omega⟩
    have hr := items_reads (items_puts (List.range' 2 4095 ++ [0]) (t := {}) (d := []) rfl hn (by simp [MAX_ENTRIES]))
    rw [← foldl_append] at hr
    have hk : host 0 ∉ (Trace.run plain calls).cache.keys := by
      rw [Lru.keys, Trace.run, hr, filled, map_map, mem_map]
      rintro ⟨n, hn, h⟩
      rw [host_injective h] at hn
      simp at hn
    rw [get, Lru.find?_eq_none.mpr hk]

end Reads

end App.DnsMap
