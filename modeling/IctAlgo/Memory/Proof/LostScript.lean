import IctAlgo.Lib.Text
import IctAlgo.Memory.Script
import IctAlgo.Memory.Proof.RingBuffer

/-!
# Recovery from a lost script

A process that has cached the hash never loads the script again: the `NoScriptError` of its
`EVALSHA` is turned into a `RedisOpFailed` by the wrapper, which the handler of the reload does not
catch, and the reload would find the hash in the cache. So a call depends on the script being there
at one of its two attempts (`available`).

* `call_eq`: a call is a call of the alert store when the script is available, and otherwise it
  answers `False` and stores nothing.
* `recovers_iff`: an alert newer than the head is stored exactly when the script is available.
* `lostScript_iff`: the same for runs, in which a duplicate is then reported rightly.
-/

set_option autoImplicit false

namespace Memory

open Lib Lib.Runs

namespace World

variable {β : Type} {w : World β} {c : ScriptCall β}

/-! ## One call -/

/-- The script is there at one of the commands `n` and `n + 1`. -/
def found (c : ScriptCall β) (n : ℕ) (loaded : Bool) : Bool :=
  loadedAfter (c.events n) loaded || loadedAfter (c.events (n + 1)) (loadedAfter (c.events n) loaded)

/-- The script is there at the first or at the second `EVALSHA` of the call: a process without the
hash has loaded it just before. -/
def available (w : World β) (c : ScriptCall β) : Bool :=
  if w.sha c.process then found c 0 w.scriptLoaded else found c 1 true

theorem wp_evalsha {Q : Bool → World β → Prop} {E : RedisError → World β → Prop} :
    Exn.wp (evalsha c) Q E w ↔
      if loadedAfter (c.events w.commands) w.scriptLoaded then
        Q (w.server.storeAlertLua c.now c.alert (capOr c.cap c.alert.tf)).1 { w with
          server := (w.server.storeAlertLua c.now c.alert (capOr c.cap c.alert.tf)).2
          scriptLoaded := loadedAfter (c.events w.commands) w.scriptLoaded
          commands := w.commands + 1 }
      else E .noScript { w with
        scriptLoaded := loadedAfter (c.events w.commands) w.scriptLoaded
        commands := w.commands + 1 } := by
  simp only [evalsha, arrive, Exn.wp_bind, Exn.wp_modify, Exn.wp_get, Exn.wp_ite]
  rfl

/-- Both attempts of `EVALSHA`. -/
theorem wp_callRedis_evalsha : Exn.wp (callRedis (evalsha c))
    (fun r w' => found c w.commands w.scriptLoaded = true ∧
      (r, w'.server) = w.server.storeAlertLua c.now c.alert (capOr c.cap c.alert.tf))
    (fun err w' => err = .opFailed .noScript ∧ found c w.commands w.scriptLoaded = false ∧
      w'.server = w.server) w := by
  unfold callRedis found
  rw [Exn.wp_tryCatch, wp_evalsha]
  split
  · rename_i h
    exact ⟨by rw [h, Bool.true_or], rfl⟩
  · rename_i h
    rw [Bool.not_eq_true] at h
    rw [Exn.wp_tryCatch, wp_evalsha]
    split
    · rename_i h'
      exact ⟨by rw [h', Bool.or_true], rfl⟩
    · rename_i h'
      rw [Bool.not_eq_true] at h'
      rw [Exn.wp_throw]
      exact ⟨rfl, by rw [h', h, Bool.or_self], rfl⟩

/-- The hash is there afterwards: from the cache, or the script has just been loaded. -/
theorem wp_getStoreAlertSha (hw : w.commands = 0) {Q : Unit → World β → Prop}
    {E : RedisError → World β → Prop}
    (h : ∀ w' : World β, w'.server = w.server →
      found c w'.commands w'.scriptLoaded = available w c → Q ⟨⟩ w') :
    Exn.wp (getStoreAlertSha c) Q E w := by
  unfold available at h
  simp only [getStoreAlertSha, Exn.wp_bind, Exn.wp_get]
  by_cases hsha : w.sha c.process = true
  · rw [if_pos hsha]
    refine h w rfl ?_
    rw [if_pos hsha, hw]
  · rw [if_neg hsha, Exn.wp_tryCatch]
    simp only [loadSha, callRedis, scriptLoad, arrive, Exn.wp_bind, Exn.wp_tryCatch, Exn.wp_modify]
    refine h _ rfl ?_
    rw [if_neg hsha, hw]

/-- **What a call does**, whatever happens to the script. -/
theorem call_eq (w : World β) (c : ScriptCall β) :
    ((w.call c).1, (w.call c).2.server) =
      if available w c then w.server.storeAlert c.now c.alert c.cap else (false, w.server) := by
  have hspec : Exn.Ensures (storeAlert c) (fun r w' => (r, w'.server) =
      if available w c then w.server.storeAlert c.now c.alert c.cap else (false, w.server))
      { w with commands := 0 } := by
    unfold storeAlert Server.storeAlert
    by_cases hempty : c.alert.symbol = "" ∨ c.alert.tf = ""
    · rw [if_pos hempty, if_pos hempty, Exn.Ensures, Exn.wp_pure, ite_self]
    · rw [if_neg hempty, if_neg hempty, Exn.Ensures, Exn.wp_tryCatch, runScript, Exn.wp_bind]
      refine wp_getStoreAlertSha rfl fun w' hserver hfound => ?_
      rw [Exn.wp_tryCatch]
      refine Exn.wp_mono wp_callRedis_evalsha ?_ ?_
      · intro r w'' h
        obtain ⟨hyes, hr⟩ := h
        rw [hfound] at hyes
        change available w c = true at hyes
        rw [hr, if_pos hyes, hserver]
      · intro err w'' h
        obtain ⟨rfl, hno, hr⟩ := h
        rw [hfound] at hno
        change available w c = false at hno
        rw [Exn.wp_throw, Exn.wp_pure, hr, hserver, hno]
        rfl
  obtain ⟨r, w', hrun, heq⟩ := hspec.exists
  unfold call
  rw [hrun]
  exact heq

/-! ## Runs -/

/-- The alert is newer than the head of its buffer, if that has one. -/
def Newer (w : World β) (c : ScriptCall β) : Prop :=
  ∀ head, w.server.head c.now c.alert.buffer = some head → head < c.alert.ts

/-- An alert newer than the head is stored, and a call answers `False`, which is reported as a
duplicate, only if an alert of the same symbol and timeframe is stored that is not older. -/
structure Recovers (w : World β) (c : ScriptCall β) : Prop where
  stored : Newer w c → (w.call c).1 = true ∧
    c.alert ∈ (w.call c).2.server.entries c.now c.alert.buffer
  duplicate : (w.call c).1 = false → ∃ alert ∈ w.server.entries c.now c.alert.buffer,
    alert.symbol = c.alert.symbol ∧ alert.tf = c.alert.tf ∧ c.alert.ts ≤ alert.ts

/-- A symbol and a timeframe of their own buffer. -/
structure Named (alert : Alert β) : Prop where
  symbol : alert.symbol ≠ ""
  tf : alert.tf ≠ ""
  plain : ':' ∉ alert.tf.toList

theorem Named.eq_of_buffer {alert alert' : Alert β} (h : Named alert) (h' : Named alert')
    (heq : alert.buffer = alert'.buffer) : alert.symbol = alert'.symbol ∧ alert.tf = alert'.tf := by
  have hlist := congrArg String.toList heq
  simp only [Alert.buffer, bufferName, String.toList_append, List.append_assoc] at hlist
  obtain ⟨hsymbol, htf⟩ := Text.append_cons_inj h.plain h'.plain hlist
  exact ⟨String.toList_injective hsymbol, String.toList_injective htf⟩

/-- The server is one that accepted named alerts by the calls of the alert store. -/
def Tracks (caps : String → ℕ) (w : World β) : Prop :=
  ∃ v : Server.Watched β, v.server = w.server ∧ Server.Kept caps v ∧ ∀ c ∈ v.accepted, Named c.alert

theorem Tracks.step {caps : String → ℕ} (h : Tracks caps w) (hregular : Server.Regular caps c.toCall)
    (hnamed : Named c.alert) : Tracks caps (w.step c) := by
  obtain ⟨v, hserver, hkept, hnames⟩ := h
  have heq := congrArg Prod.snd (call_eq w c)
  cases hav : available w c with
  | true =>
    rw [hav] at heq
    refine ⟨v.step c.toCall, ?_, hkept.step hregular, fun c' hc' => ?_⟩
    · show v.server.step c.toCall = (w.call c).2.server
      rw [hserver]
      exact heq.symm
    · unfold Server.Watched.step at hc'
      simp only at hc'
      split at hc'
      · obtain rfl | hc' := List.mem_cons.1 hc'
        · exact hnamed
        · exact hnames c' hc'
      · exact hnames c' hc'
  | false =>
    rw [hav] at heq
    exact ⟨v, hserver.trans heq.symm, hkept, hnames⟩

/-- An alert that is newer is stored when the script is available, and never otherwise. -/
theorem stored_iff {caps : String → ℕ} (h : Tracks caps w) (hregular : Server.Regular caps c.toCall)
    (hnamed : Named c.alert) (hnewer : Newer w c) :
    (available w c = true → (w.call c).1 = true ∧
      c.alert ∈ (w.call c).2.server.entries c.now c.alert.buffer) ∧
    ((w.call c).1 = true → available w c = true) := by
  obtain ⟨v, hserver, hkept, -⟩ := h
  have heq := call_eq w c
  obtain ⟨hanswer, hentries⟩ := (hkept.observed c.alert.symbol c.alert.tf c.now).stores c.toCall
    hregular rfl rfl rfl hnamed.symbol hnamed.tf
  rw [hserver] at hanswer hentries
  refine ⟨fun hav => ?_, fun hyes => ?_⟩
  · rw [hav, if_pos rfl] at heq
    have hyes := hanswer.2 hnewer
    obtain ⟨hone, htwo⟩ := Prod.ext_iff.1 heq
    simp only at hone htwo
    rw [hone, htwo]
    refine ⟨hyes, ?_⟩
    unfold Alert.buffer
    rw [hentries, if_pos hyes]
    have hpos := hregular.cap_pos
    unfold Alert.buffer at hpos
    cases hcap : caps (bufferName c.alert.symbol c.alert.tf) with
    | zero => omega
    | succ n => simp
  · cases hav : available w c with
    | true => rfl
    | false =>
      rw [hav] at heq
      rw [(Prod.mk.inj heq).1] at hyes
      exact hyes

/-- An alert that is not newer has one of its symbol and timeframe before it that is not older. -/
theorem Tracks.not_older {caps : String → ℕ} (h : Tracks caps w)
    (hregular : Server.Regular caps c.toCall) (hnamed : Named c.alert) (hold : ¬ Newer w c) :
    ∃ alert ∈ w.server.entries c.now c.alert.buffer,
      alert.symbol = c.alert.symbol ∧ alert.tf = c.alert.tf ∧ c.alert.ts ≤ alert.ts := by
  obtain ⟨v, hserver, hkept, hnames⟩ := h
  unfold Newer at hold
  simp only [not_forall, not_lt] at hold
  obtain ⟨head, hhead, hle⟩ := hold
  rw [← hserver] at hhead
  obtain ⟨alert, hmem, rfl⟩ := (hkept.stored _).newest hregular.cap_pos hhead
  refine ⟨alert, by rwa [← hserver], ?_⟩
  rw [(hkept.stored _).entries_eq] at hmem
  obtain ⟨c', hc', rfl⟩ := Server.mem_unexpired (List.mem_of_mem_take hmem)
  obtain ⟨hacc, hbuffer⟩ := List.mem_filter.1 hc'
  obtain ⟨hsymbol, htf⟩ := (hnames c' hacc).eq_of_buffer hnamed (by simpa using hbuffer)
  exact ⟨hsymbol, htf, hle⟩

/-- **A call recovers** exactly when the script is available to an alert that is newer. -/
theorem recovers_iff {caps : String → ℕ} (h : Tracks caps w)
    (hregular : Server.Regular caps c.toCall) (hnamed : Named c.alert) :
    Recovers w c ↔ (Newer w c → available w c = true) := by
  refine ⟨fun hrec hnewer => ?_, fun hav => ?_⟩
  · exact (stored_iff h hregular hnamed hnewer).2 (hrec.stored hnewer).1
  · have hstored := fun hnewer : Newer w c =>
      (stored_iff h hregular hnamed hnewer).1 (hav hnewer)
    refine ⟨hstored, fun hno => h.not_older hregular hnamed fun hnewer => ?_⟩
    rw [(hstored hnewer).1] at hno
    cases hno

/-- The call names one buffer, with the cap of this buffer. -/
structure Plain (caps : String → ℕ) (c : ScriptCall β) : Prop where
  regular : Server.Regular caps c.toCall
  named : Named c.alert

/-- **Recovery, exactly.** -/
theorem lostScript_iff (caps : String → ℕ) (calls : List (ScriptCall β))
    (h : ∀ c ∈ calls, Plain caps c) :
    Within step Recovers {} calls ↔
      Within step (fun w c => Newer w c → available w c = true) {} calls := by
  refine within_congr_of (I := Tracks caps) h ?_ ?_ ?_
  · exact ⟨{}, rfl, Server.kept_run caps [] (by simp), by simp⟩
  · exact fun w c hw hc => hw.step hc.regular hc.named
  · exact fun w c hw hc => recovers_iff hw hc.regular hc.named

/-- An alert for `BTCUSD`, stored by the process 0. -/
def btcCall (ts : ℤ) (events : ℕ → List ScriptEvent) : ScriptCall Unit where
  now := ts
  alert := ⟨"BTCUSD", "H1", ts, ()⟩
  process := 0
  events := events

theorem lostScript_iff_two :
    Within step Recovers {} [btcCall 5 fun _ => [], btcCall 6 fun _ => [.forget, .load]] ↔
      Within step (fun w c => Newer w c → available w c = true) {}
        [btcCall 5 fun _ => [], btcCall 6 fun _ => [.forget, .load]] :=
  lostScript_iff (fun _ => 24) _
    (List.forall_mem_cons.2 ⟨⟨⟨by decide, by decide⟩, ⟨by decide, by decide, by decide⟩⟩,
      List.forall_mem_cons.2 ⟨⟨⟨by decide, by decide⟩, ⟨by decide, by decide, by decide⟩⟩,
        List.forall_mem_nil _⟩⟩)

/-- The server forgets the script after the first alert: the second one, newer, is not stored. -/
theorem lostScript_refused :
    ¬ Within step Recovers {} [btcCall 5 fun _ => [],
      btcCall 6 fun n => if n = 0 then [.forget] else []] := by
  intro h
  obtain ⟨-, hsecond, -⟩ := h
  have hnewer : Newer (step {} (btcCall 5 fun _ => []))
      (btcCall 6 fun n => if n = 0 then [.forget] else []) := by
    intro head hhead
    have hfive : (step {} (btcCall 5 fun _ => [])).server.head 6 "BTCUSD:H1" = some 5 := by
      decide +kernel
    obtain rfl := Option.some.inj (hfive.symm.trans hhead)
    decide
  have hyes := (hsecond.stored hnewer).1
  revert hyes
  decide +kernel

end World

end Memory
