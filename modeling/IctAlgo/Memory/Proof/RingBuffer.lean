import IctAlgo.Lib.Runs
import IctAlgo.Memory.AlertStore

/-!
# The ring buffers

`Watched` keeps the accepted calls beside the server. What a buffer holds is their newest part
(`unexpired`): the alerts since the buffer last ran out, trimmed to the cap.

* `Stored`: the invariant of a buffer. Its two keys are written together, so they expire together,
  and its alerts get newer and newer.
* `Stored.accept`, `Stored.other`: an accepted alert keeps it, for its own buffer and for the others.
* `ringBuffer_invariant`: what the clients see of it, in every reachable state.
-/

set_option autoImplicit false

namespace Memory

open Lib Lib.Runs

variable {β : Type}

namespace Server

/-! ## The accepted alerts -/

/-- A server with the calls it accepted so far, newest first. -/
structure Watched (β : Type) where
  server : Server β := {}
  accepted : List (Call β) := []

def Watched.step (w : Watched β) (call : Call β) : Watched β where
  server := w.server.step call
  accepted :=
    if (w.server.storeAlert call.now call.alert call.cap).1 then call :: w.accepted else w.accepted

/-- The accepted calls of a buffer. -/
def Watched.acceptedIn (w : Watched β) (buffer : String) : List (Call β) :=
  w.accepted.filter (·.alert.buffer = buffer)

/-- The alerts of a buffer that are there at the time `now`, of its accepted calls: it runs out when
it is not written for `rbTtl`, and starts anew with the next alert. -/
def unexpired : ℤ → List (Call β) → List (Alert β)
  | _, [] => []
  | now, call :: calls =>
    if now < call.now + rbTtl then call.alert :: unexpired call.now calls else []

/-- Newest first, without two of one time. -/
def Decreasing (alerts : List (Alert β)) : Prop := alerts.Pairwise fun newer older => older.ts < newer.ts

theorem Decreasing.nodup {alerts : List (Alert β)} (h : Decreasing alerts) :
    (alerts.map (·.ts)).Nodup := by
  refine List.pairwise_map.2 (List.Pairwise.imp ?_ h)
  intro newer older hlt
  exact hlt.ne'

theorem decreasing_cons {alert : Alert β} {alerts : List (Alert β)} (h : Decreasing alerts)
    (hnew : ∀ newest, alerts.head? = some newest → newest.ts < alert.ts) :
    Decreasing (alert :: alerts) := by
  refine List.pairwise_cons.2 ⟨fun older holder => ?_, h⟩
  cases alerts with
  | nil => exact absurd holder List.not_mem_nil
  | cons newest rest =>
    have hlt := hnew newest rfl
    obtain rfl | hmem := List.mem_cons.1 holder
    · exact hlt
    · exact ((List.pairwise_cons.1 h).1 older hmem).trans hlt

theorem mem_unexpired {now : ℤ} {calls : List (Call β)} {alert : Alert β}
    (h : alert ∈ unexpired now calls) : ∃ call ∈ calls, call.alert = alert := by
  induction calls generalizing now with
  | nil => exact absurd h List.not_mem_nil
  | cons call calls ih =>
    unfold unexpired at h
    split at h
    · obtain rfl | h := List.mem_cons.1 h
      · exact ⟨call, List.mem_cons_self, rfl⟩
      · obtain ⟨c, hc, heq⟩ := ih h
        exact ⟨c, List.mem_cons_of_mem _ hc, heq⟩
    · exact absurd h List.not_mem_nil

/-! ## Keys -/

theorem headKey_inj {b b' : String} : headKey b = headKey b' ↔ b = b' := String.append_right_inj _

theorem rbKey_inj {b b' : String} : rbKey b = rbKey b' ↔ b = b' := String.append_right_inj _

theorem capOr_ne_zero (cap : Option ℤ) (tf : String) : capOr cap tf ≠ 0 := by
  have hpos : ∀ c ∈ windowCaps, c.2 ≠ 0 := by decide
  have hdefault : windowCap tf ≠ 0 := by
    unfold windowCap
    cases h : windowCaps.lookup tf with
    | none => decide
    | some c =>
      obtain ⟨as, bs, hsplit, -⟩ := List.lookup_eq_some_iff.1 h
      exact hpos (tf, c) (by rw [hsplit]; simp)
  unfold capOr
  split
  · exact Int.natCast_ne_zero.2 hdefault
  · split
    · exact Int.natCast_ne_zero.2 hdefault
    · assumption

/-! ## The invariant of a buffer -/

variable {s : Server β} {buffer : String} {cap : ℕ} {calls : List (Call β)} {call : Call β}

/-- What the key of the buffer holds. -/
def contents (cap : ℕ) : List (Call β) → Option (Expiring (List (Alert β)))
  | [] => none
  | call :: calls =>
    some ⟨(call.alert :: unexpired call.now calls).take cap, some (call.now + rbTtl)⟩

/-- What the two keys of a buffer hold, by its accepted calls. -/
structure Stored (s : Server β) (buffer : String) (cap : ℕ) (calls : List (Call β)) : Prop where
  head : s.heads.get? (headKey buffer) =
    calls.head?.map fun call => ⟨call.alert.ts, some (call.now + rbTtl)⟩
  entries : s.buffers.get? (rbKey buffer) = contents cap calls
  decreasing : ∀ now, Decreasing (unexpired now calls)

theorem stored_new (buffer : String) (cap : ℕ) : Stored ({} : Server β) buffer cap [] :=
  ⟨rfl, rfl, fun _ => List.Pairwise.nil⟩

theorem Stored.entries_eq (h : Stored s buffer cap calls) (now : ℤ) :
    s.entries now buffer = (unexpired now calls).take cap := by
  unfold Server.entries Keyspace.fetch
  rw [h.entries]
  cases calls with
  | nil => simp [contents, unexpired]
  | cons call calls =>
    by_cases hlive : now < call.now + rbTtl
    · simp [contents, unexpired, Expiring.live, hlive]
    · simp [contents, unexpired, Expiring.live, hlive]

theorem Stored.head_eq (h : Stored s buffer cap calls) (now : ℤ) :
    s.head now buffer = (unexpired now calls).head?.map (·.ts) := by
  unfold Server.head Keyspace.fetch
  rw [h.head]
  cases calls with
  | nil => simp [unexpired]
  | cons call calls =>
    by_cases hlive : now < call.now + rbTtl
    · simp [unexpired, Expiring.live, hlive]
    · simp [unexpired, Expiring.live, hlive]

/-- The head is the timestamp of an alert in the buffer. -/
theorem Stored.newest (h : Stored s buffer cap calls) (hcap : 0 < cap) {now head : ℤ}
    (hh : s.head now buffer = some head) : ∃ newest ∈ s.entries now buffer, newest.ts = head := by
  rw [h.head_eq] at hh
  rw [h.entries_eq]
  obtain ⟨newest, hnewest, rfl⟩ := Option.map_eq_some_iff.1 hh
  cases hu : unexpired now calls with
  | nil => simp [hu] at hnewest
  | cons alert alerts =>
    cases cap with
    | zero => exact absurd hcap (Nat.lt_irrefl 0)
    | succ n =>
      rw [hu] at hnewest
      obtain rfl := Option.some.inj hnewest
      exact ⟨alert, by simp, rfl⟩

/-- The script stores exactly what is newer than the head. -/
theorem storeAlertLua_cases (s : Server β) (now : ℤ) (alert : Alert β) (cap : ℤ)
    (hts : alert.ts.natAbs < 2 ^ 53)
    (hhead : ∀ head, s.head now alert.buffer = some head → head.natAbs < 2 ^ 53) :
    ((∃ head, s.head now alert.buffer = some head ∧ alert.ts ≤ head) ∧
      s.storeAlertLua now alert cap = (false, s)) ∨
    ((∀ head, s.head now alert.buffer = some head → head < alert.ts) ∧
      s.storeAlertLua now alert cap = (true, {
        heads := s.heads.put (headKey alert.buffer) alert.ts (some (now + rbTtl))
        buffers := s.buffers.put (rbKey alert.buffer)
          (upTo (alert :: s.entries now alert.buffer) (cap - 1)) (some (now + rbTtl)) })) := by
  unfold storeAlertLua
  cases hh : s.head now alert.buffer with
  | none => exact .inr ⟨by simp, rfl⟩
  | some head =>
    simp only [Binary64.ofInt_of_lt hts, Binary64.ofInt_of_lt (hhead head hh)]
    by_cases hle : alert.ts ≤ head
    · rw [if_pos hle]
      exact .inl ⟨⟨head, rfl, hle⟩, rfl⟩
    · rw [if_neg hle]
      refine .inr ⟨fun head' heq => ?_, rfl⟩
      obtain rfl := Option.some.inj heq
      exact not_le.1 hle

/-- An accepted alert in its own buffer. -/
theorem Stored.accept (h : Stored s call.alert.buffer cap calls)
    (hnew : ∀ head, s.head call.now call.alert.buffer = some head → head < call.alert.ts)
    (hcap : 0 < cap) {s' : Server β}
    (hheads : s'.heads = s.heads.put (headKey call.alert.buffer) call.alert.ts
      (some (call.now + rbTtl)))
    (hbuffers : s'.buffers = s.buffers.put (rbKey call.alert.buffer)
      (upTo (call.alert :: s.entries call.now call.alert.buffer) (cap - 1))
      (some (call.now + rbTtl))) :
    Stored s' call.alert.buffer cap (call :: calls) := by
  refine ⟨?_, ?_, fun now => ?_⟩
  · rw [hheads, Keyspace.put, Dict.get?_set_self]
    rfl
  · rw [hbuffers, Keyspace.put, Dict.get?_set_self, upTo_pred hcap, h.entries_eq, take_cons_take]
    rfl
  · unfold unexpired
    split
    · refine decreasing_cons (h.decreasing call.now) fun newest hnewest => hnew _ ?_
      rw [h.head_eq, hnewest]
      rfl
    · exact List.Pairwise.nil

/-- A call of another buffer. -/
theorem Stored.other (h : Stored s buffer cap calls) {b : String} (hb : buffer ≠ b) {s' : Server β}
    {ts deadline deadline' : ℤ} {alerts : List (Alert β)}
    (hheads : s'.heads = s.heads.put (headKey b) ts (some deadline))
    (hbuffers : s'.buffers = s.buffers.put (rbKey b) alerts (some deadline')) :
    Stored s' buffer cap calls := by
  refine ⟨?_, ?_, h.decreasing⟩
  · rw [hheads, Keyspace.put, Dict.get?_set_ne _ _ (mt headKey_inj.1 hb)]
    exact h.head
  · rw [hbuffers, Keyspace.put, Dict.get?_set_ne _ _ (mt rbKey_inj.1 hb)]
    exact h.entries

/-! ## Runs -/

theorem run_server (calls : List (Call β)) :
    (run Watched.step {} calls).server = run step {} calls := by
  induction calls using List.reverseRecOn with
  | nil => rfl
  | append_singleton calls call ih =>
    rw [run_append, run_append, ← ih]
    rfl

/-- The call is made with the cap of its buffer, and its timestamp is an exact float. -/
structure Regular (caps : String → ℕ) (call : Call β) : Prop where
  cap : capOr call.cap call.alert.tf = caps call.alert.buffer
  ts : call.alert.ts.natAbs < 2 ^ 53

theorem Regular.cap_pos {caps : String → ℕ} (h : Regular caps call) :
    0 < caps call.alert.buffer := by
  have hne := capOr_ne_zero call.cap call.alert.tf
  rw [h.cap] at hne
  omega

/-- Every buffer is stored, and its heads are exact floats. -/
structure Kept (caps : String → ℕ) (w : Watched β) : Prop where
  stored : ∀ buffer, Stored w.server buffer (caps buffer) (w.acceptedIn buffer)
  exact_ts : ∀ call ∈ w.accepted, call.alert.ts.natAbs < 2 ^ 53

/-- A head is the timestamp of an accepted alert of its buffer. -/
theorem Kept.head_mem {caps : String → ℕ} {w : Watched β} (h : Kept caps w) {now head : ℤ}
    (hh : w.server.head now buffer = some head) :
    ∃ call ∈ w.acceptedIn buffer, call.alert.ts = head := by
  rw [(h.stored buffer).head_eq] at hh
  cases hcalls : w.acceptedIn buffer with
  | nil => simp [hcalls, unexpired] at hh
  | cons call calls =>
    rw [hcalls, unexpired] at hh
    split at hh
    · exact ⟨call, List.mem_cons_self, by simpa using hh⟩
    · simp at hh

theorem Kept.head_small {caps : String → ℕ} {w : Watched β} (h : Kept caps w) {now head : ℤ}
    (hh : w.server.head now buffer = some head) : head.natAbs < 2 ^ 53 := by
  obtain ⟨call, hmem, rfl⟩ := h.head_mem hh
  exact h.exact_ts call (List.mem_of_mem_filter hmem)

theorem Kept.step {caps : String → ℕ} {w : Watched β} (h : Kept caps w) (hcall : Regular caps call) :
    Kept caps (w.step call) := by
  unfold Watched.step Server.step storeAlert
  by_cases hempty : call.alert.symbol = "" ∨ call.alert.tf = ""
  · simp only [if_pos hempty]
    exact h
  · simp only [if_neg hempty]
    obtain ⟨-, heq⟩ | ⟨hnew, heq⟩ := storeAlertLua_cases w.server call.now call.alert
      (capOr call.cap call.alert.tf) hcall.ts fun head hh => h.head_small hh
    · rw [heq]
      exact h
    · rw [heq]
      refine ⟨fun buffer => ?_, ?_⟩
      · have hcap := hcall.cap_pos
        unfold Watched.acceptedIn
        by_cases hb : buffer = call.alert.buffer
        · subst hb
          rw [if_pos rfl, List.filter_cons_of_pos (by simp)]
          refine (h.stored _).accept hnew hcap rfl ?_
          rw [hcall.cap]
        · rw [if_pos rfl, List.filter_cons_of_neg (by simpa using Ne.symm hb)]
          exact (h.stored buffer).other hb rfl rfl
      · simp only [↓reduceIte, List.mem_cons, forall_eq_or_imp]
        exact ⟨hcall.ts, h.exact_ts⟩

theorem kept_run (caps : String → ℕ) (calls : List (Call β))
    (h : ∀ call ∈ calls, Regular caps call) : Kept caps (run Watched.step {} calls) := by
  induction calls using List.reverseRecOn with
  | nil => exact ⟨fun buffer => stored_new buffer _, by simp⟩
  | append_singleton calls call ih =>
    rw [run_append]
    refine (ih fun c hc => h c (List.mem_append_left _ hc)).step (h call ?_)
    simp

/-! ## What the clients see -/

/-- The buffer of a symbol and a timeframe at the time `now`. -/
structure Observed (caps : String → ℕ) (w : Watched β) (symbol tf : String) (now : ℤ) : Prop where
  bounded : (w.server.entries now (bufferName symbol tf)).length ≤ caps (bufferName symbol tf)
  decreasing : Decreasing (w.server.entries now (bufferName symbol tf))
  head : ∀ newest older, w.server.entries now (bufferName symbol tf) = newest :: older →
    w.server.head now (bufferName symbol tf) = some newest.ts
  stores : ∀ call : Call β, Regular caps call → call.now = now → call.alert.symbol = symbol →
    call.alert.tf = tf → symbol ≠ "" → tf ≠ "" →
    let r := w.server.storeAlert now call.alert call.cap
    (r.1 = true ↔ ∀ head, w.server.head now (bufferName symbol tf) = some head →
      head < call.alert.ts) ∧
    r.2.entries now (bufferName symbol tf) =
      if r.1 then (call.alert :: w.server.entries now (bufferName symbol tf)).take
        (caps (bufferName symbol tf))
      else w.server.entries now (bufferName symbol tf)
  window : ∀ n : ℕ, 0 < n → w.server.fetchWindow now symbol tf (some n) =
    (unexpired now (w.acceptedIn (bufferName symbol tf))).take (min n (caps (bufferName symbol tf)))
  defaultWindow : w.server.fetchWindow now symbol tf none =
    (unexpired now (w.acceptedIn (bufferName symbol tf))).take
      (min (windowCap tf) (caps (bufferName symbol tf)))

/-- A window of the stored alerts. -/
theorem Stored.window (h : Stored s buffer cap calls) (now : ℤ) {n : ℕ} (hn : 0 < n) :
    dedupBy (·.ts) (upTo (s.entries now buffer) (n - 1)) =
      (unexpired now calls).take (min n cap) := by
  rw [upTo_pred hn, h.entries_eq, List.take_take]
  exact dedupBy_of_nodup _ ((h.decreasing now).nodup.sublist ((List.take_sublist _ _).map _))

theorem Kept.observed {caps : String → ℕ} {w : Watched β} (h : Kept caps w) (symbol tf : String)
    (now : ℤ) : Observed caps w symbol tf now := by
  have hst := h.stored (bufferName symbol tf)
  refine ⟨?_, ?_, ?_, ?_, ?_, ?_⟩
  · rw [hst.entries_eq]
    exact List.length_take_le _ _
  · rw [hst.entries_eq]
    exact (hst.decreasing now).sublist (List.take_sublist _ _)
  · intro newest older hentries
    rw [hst.entries_eq] at hentries
    rw [hst.head_eq]
    cases hu : unexpired now (w.acceptedIn (bufferName symbol tf)) with
    | nil => simp [hu] at hentries
    | cons alert alerts =>
      cases hcap : caps (bufferName symbol tf) with
      | zero => simp [hcap] at hentries
      | succ c =>
        rw [hu, hcap, List.take_succ_cons] at hentries
        obtain ⟨rfl, -⟩ := List.cons.inj hentries
        rfl
  · rintro call hcall rfl rfl rfl hsymbol htf
    have hcap := hcall.cap
    have hpos := hcall.cap_pos
    unfold Alert.buffer at hcap hpos
    simp only [storeAlert, if_neg (not_or.2 ⟨hsymbol, htf⟩)]
    obtain ⟨⟨head, hh, hle⟩, heq⟩ | ⟨hnew, heq⟩ := storeAlertLua_cases w.server call.now call.alert
      (capOr call.cap call.alert.tf) hcall.ts fun head hh => h.head_small hh
    · rw [heq]
      refine ⟨⟨nofun, fun hall => ?_⟩, rfl⟩
      exact absurd (hall head hh) (not_lt.2 hle)
    · rw [heq]
      refine ⟨⟨fun _ => hnew, fun _ => rfl⟩, ?_⟩
      simp only [↓reduceIte, Server.entries, Alert.buffer]
      rw [Keyspace.fetch_put, if_pos rfl, if_pos, hcap, upTo_pred hpos]
      · rfl
      · simp [Expiring.live, rbTtl]
  · intro n hn
    have hcap : capOr (some (n : ℤ)) tf = n := if_neg (by omega)
    unfold fetchWindow
    rw [hcap]
    exact hst.window now hn
  · exact hst.window now (Nat.pos_of_ne_zero (Int.natCast_ne_zero.1 (capOr_ne_zero none tf)))

/-- **The ring buffers**, in every reachable state. -/
theorem ringBuffer_invariant (caps : String → ℕ) (calls : List (Call β))
    (h : ∀ call ∈ calls, Regular caps call) (symbol tf : String) (now : ℤ) :
    (run Watched.step {} calls).server = run step {} calls ∧
    Observed caps (run Watched.step {} calls) symbol tf now :=
  ⟨run_server calls, (kept_run caps calls h).observed symbol tf now⟩

/-- An alert for `BTCUSD` on the hour. -/
def hourly (ts : ℤ) : Alert Unit := ⟨"BTCUSD", "H1", ts, ()⟩

theorem ringBuffer_invariant_two :
    (run Watched.step {} [⟨0, hourly 5, none⟩, ⟨9, hourly 6, none⟩]).server =
      run step {} [⟨0, hourly 5, none⟩, ⟨9, hourly 6, none⟩] ∧
    Observed (fun _ => 24) (run Watched.step {} [⟨0, hourly 5, none⟩, ⟨9, hourly 6, none⟩])
      "BTCUSD" "H1" 10 :=
  ringBuffer_invariant (fun _ => 24) _
    (List.forall_mem_cons.2 ⟨⟨by decide, by decide⟩,
      List.forall_mem_cons.2 ⟨⟨by decide, by decide⟩, List.forall_mem_nil _⟩⟩) "BTCUSD" "H1" 10

/-- The only alert is gone after `RB_TTL`; a window of 0 alerts is a default window; timestamps
below `- 2 ^ 53` are rounded; and an alert without a symbol is refused by an empty buffer. -/
theorem ringBuffer_limits :
    (run step {} [(⟨0, hourly 5, none⟩ : Call Unit)]).fetchWindow rbTtl "BTCUSD" "H1" (some 1) = [] ∧
    (run step {} [(⟨0, hourly 5, none⟩ : Call Unit)]).fetchWindow 0 "BTCUSD" "H1" (some 0) =
      [hourly 5] ∧
    ((run step {} [(⟨0, hourly (-9007199254740993), none⟩ : Call Unit)]).storeAlert 0
      (hourly (-9007199254740992)) none).1 = false ∧
    (({} : Server Unit).storeAlert 0 ⟨"", "H1", 5, ()⟩ none).1 = false := by
  decide +kernel

end Server

end Memory
