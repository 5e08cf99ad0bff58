import IctAlgo.Memory.Analytics
import IctAlgo.Memory.Proof.RingBuffer

/-!
# Fused and fetched analytics

`AnalyticsAgree`: what `fuse` puts in the snapshot is what the wrappers compute, and only the most
recent alerts matter. The volatility index looks at the 20 newest alerts of a window in any case; the
trend acceleration cuts a window behind its oldest 20, which in the wrapper are all it fetched.

* `Contents`: the ring buffers of a symbol, and what `fetch_window` reads of them.
* `fused_of_le`: up to 20 alerts the analytics agree.
* `analyticsAgree_iff`: with 20 alerts or more the older ones matter.
* `Contents.exists_of_run`: the states a run of the store reaches.
-/

set_option autoImplicit false

namespace Memory

open Lib Lib.Runs Fusion

/-! ## Ring buffers -/

/-- The ring buffers of a symbol at a time of the server. -/
structure Contents where
  server : Server (Body ℚ)
  now : ℤ
  symbol : String
  decreasing : ∀ tf, Server.Decreasing (server.entries now (bufferName symbol tf))
  capped : ∀ tf, (server.entries now (bufferName symbol tf)).length ≤ windowCap tf

namespace Contents

variable (c : Contents)

/-- The buffer of a timeframe, newest first. -/
def alerts (tf : String) : List PriceAlert := c.server.entries c.now (bufferName c.symbol tf)

/-- The windows that `fuse` fetches. -/
def windows : Windows ℚ := c.server.windows c.now c.symbol

def computeTrendAcceleration (tf : String) (lookback : ℕ) : ℚ :=
  c.server.computeTrendAcceleration c.now c.symbol tf lookback

def computeVolatilityIndex (tanh : ℚ → ℚ) : ℚ := c.server.computeVolatilityIndex c.now c.symbol tanh

/-- The analytics of the snapshot, if there is one. -/
def fused? (tanh : ℚ → ℚ) (nowMs : ℤ) : Option Analytics :=
  (snapshot? (analyticsOnly tanh) nowMs c.windows).map (·.scores)

/-- The other buffers have the same most recent alerts. -/
def SameRecent (c' : Contents) : Prop := ∀ tf, (c'.alerts tf).take 20 = (c.alerts tf).take 20

/-- The fused analytics are those of the wrappers, and those of any buffers with the same most recent
alerts. -/
structure AnalyticsAgree (tanh : ℚ → ℚ) : Prop where
  accel : ∀ nowMs a, c.fused? tanh nowMs = some a → a.accelM5 = c.computeTrendAcceleration "M5" 20
  volatility : ∀ nowMs a, c.fused? tanh nowMs = some a →
    a.volatilityIndex = c.computeVolatilityIndex tanh
  recent : ∀ c', c.SameRecent c' → ∀ nowMs a a', c.fused? tanh nowMs = some a →
    c'.fused? tanh nowMs = some a' → a' = a

/-! ## Windows -/

/-- A fetch of `n` alerts. -/
theorem fetchWindow_some (tf : String) {n : ℕ} (hn : 0 < n) :
    c.server.fetchWindow c.now c.symbol tf (some n) = (c.alerts tf).take n := by
  have hcap : capOr (some (n : ℤ)) tf = n := if_neg (by omega)
  unfold Server.fetchWindow
  rw [hcap, upTo_pred hn]
  exact dedupBy_of_nodup _ ((c.decreasing tf).nodup.sublist ((List.take_sublist _ _).map _))

/-- A fetch without a number is one of the whole buffer. -/
theorem fetchWindow_none (tf : String) :
    c.server.fetchWindow c.now c.symbol tf none = c.alerts tf := by
  have hpos : 0 < windowCap tf :=
    Nat.pos_of_ne_zero (Int.natCast_ne_zero.1 (Server.capOr_ne_zero none tf))
  unfold Server.fetchWindow
  rw [capOr, upTo_pred hpos, List.take_of_length_le (c.capped tf)]
  exact dedupBy_of_nodup _ (c.decreasing tf).nodup

theorem windows_eq : c.windows = tfOrder.map fun tf => (tf, c.alerts tf) := by
  unfold windows Server.windows
  exact List.map_congr_left fun tf _ => by rw [c.fetchWindow_none tf]

theorem windowOf_M5 : windowOf c.windows "M5" = c.alerts "M5" := by
  rw [windows_eq]
  simp [windowOf, tfOrder, List.lookup_cons]

/-! ## The volatility index -/

theorem ranges_take (closes : List ℚ) : ranges (closes.take 20) = ranges closes := by
  have htail : (closes.take 20).tail = closes.tail.take 19 := by
    cases closes <;> rfl
  unfold ranges
  rw [List.take_zipWith, List.take_zipWith, htail, List.take_take, List.take_take]
  rfl

/-- Only the 20 newest alerts of a window count. -/
theorem percentiles_take (tfs : List String) (alerts : String → List PriceAlert) :
    percentiles (tfs.map fun tf => (tf, (alerts tf).take 20)) =
      percentiles (tfs.map fun tf => (tf, alerts tf)) := by
  unfold percentiles
  rw [List.filterMap_map, List.filterMap_map]
  refine List.filterMap_congr fun tf _ => ?_
  simp only [Function.comp_apply, List.map_take, ranges_take]

variable (tanh : ℚ → ℚ)

theorem volatilityIndex_windows : volatilityIndex tanh c.windows = c.computeVolatilityIndex tanh := by
  have hfetch : (tfOrder.map fun tf => (tf, c.server.fetchWindow c.now c.symbol tf (some 20))) =
      tfOrder.map fun tf => (tf, (c.alerts tf).take 20) :=
    List.map_congr_left fun tf _ => by rw [← c.fetchWindow_some tf (n := 20) (by decide)]; rfl
  unfold volatilityIndex computeVolatilityIndex Server.computeVolatilityIndex volatilityIndex
  rw [hfetch, percentiles_take, windows_eq]

variable {c} {c' : Contents}

theorem SameRecent.volatility (h : c.SameRecent c') :
    c'.computeVolatilityIndex tanh = c.computeVolatilityIndex tanh := by
  rw [← volatilityIndex_windows, ← volatilityIndex_windows]
  unfold volatilityIndex
  rw [windows_eq, windows_eq, ← percentiles_take, ← percentiles_take tfOrder c.alerts]
  simp only [h _]

/-! ## The trend acceleration -/

/-- The wrapper looks at the 20 newest alerts. -/
theorem computeTrendAcceleration_eq : c.computeTrendAcceleration "M5" 20 =
    trendAcceleration ((c.alerts "M5").take 20) 20 :=
  congrArg (trendAcceleration · 20) (c.fetchWindow_some "M5" (by decide))

/-- Up to 20 alerts the cut leaves all. -/
theorem trendAcceleration_of_le (h : (c.alerts "M5").length ≤ 20) :
    trendAcceleration (c.alerts "M5") 20 = c.computeTrendAcceleration "M5" 20 := by
  rw [computeTrendAcceleration_eq, List.take_of_length_le h]

theorem SameRecent.alerts_eq (h : c.SameRecent c') (hlt : (c.alerts "M5").length < 20) :
    c'.alerts "M5" = c.alerts "M5" := by
  have hrecent := h "M5"
  have hlength := congrArg List.length hrecent
  rw [List.length_take, List.length_take] at hlength
  rwa [List.take_of_length_le (by omega), List.take_of_length_le (by omega)] at hrecent

/-! ## The snapshot -/

theorem eq_of_fused? {nowMs : ℤ} {a : Analytics} (h : c.fused? tanh nowMs = some a) :
    a = fusedAnalytics tanh c.windows := by
  unfold fused? snapshot? at h
  simp only at h
  split at h
  · cases h
  · exact (Option.some.inj h).symm

/-- **Up to 20 alerts the analytics agree.** -/
theorem fused_of_le (hle : (c.alerts "M5").length ≤ 20) {nowMs : ℤ} {a : Analytics}
    (h : c.fused? tanh nowMs = some a) :
    a = ⟨c.computeVolatilityIndex tanh, c.computeTrendAcceleration "M5" 20⟩ := by
  rw [eq_of_fused? tanh h, fusedAnalytics, volatilityIndex_windows, windowOf_M5,
    trendAcceleration_of_le hle]

theorem fused?_of_M5 (h : c.alerts "M5" ≠ []) (nowMs : ℤ) :
    c.fused? tanh nowMs = some (fusedAnalytics tanh c.windows) := by
  have hmem : ("M5", c.alerts "M5") ∈ c.windows := by
    rw [windows_eq]
    exact List.mem_map.2 ⟨"M5", by decide, rfl⟩
  have hsummaries : summaries (analyticsOnly tanh) c.windows ≠ [] := by
    intro hnil
    have hnone := List.filterMap_eq_nil_iff.1 hnil _ hmem
    obtain ⟨latest, older, halerts⟩ := List.exists_cons_of_ne_nil h
    rw [halerts] at hnone
    cases hnone
  unfold fused? snapshot?
  simp only [if_neg hsummaries]
  rfl

/-! ## Older alerts -/

/-- Alerts before the time `ts`, newest first, with these closes. -/
def olderAlerts (symbol : String) : ℤ → List ℚ → List PriceAlert
  | _, [] => []
  | ts, close :: closes => ⟨symbol, "M5", ts - 1, { close }⟩ :: olderAlerts symbol (ts - 1) closes

theorem olderAlerts_closes (symbol : String) (ts : ℤ) (closes : List ℚ) :
    (olderAlerts symbol ts closes).map (·.body.close) = closes := by
  induction closes generalizing ts with
  | nil => rfl
  | cons close closes ih => rw [olderAlerts, List.map_cons, ih]

theorem ts_lt_of_mem_older {symbol : String} {ts : ℤ} {closes : List ℚ} {a : PriceAlert}
    (h : a ∈ olderAlerts symbol ts closes) : a.ts < ts := by
  induction closes generalizing ts with
  | nil => cases h
  | cons close closes ih =>
    rcases List.mem_cons.1 h with rfl | h
    · exact sub_one_lt ts
    · exact (ih h).trans (sub_one_lt ts)

theorem decreasing_older (symbol : String) (ts : ℤ) (closes : List ℚ) :
    Server.Decreasing (olderAlerts symbol ts closes) := by
  induction closes generalizing ts with
  | nil => exact List.Pairwise.nil
  | cons close closes ih => exact List.pairwise_cons.2 ⟨fun a ha => ts_lt_of_mem_older ha, ih _⟩

theorem exists_ts_le (alerts : List PriceAlert) : ∃ ts, ∀ a ∈ alerts, ts ≤ a.ts := by
  induction alerts with
  | nil => exact ⟨0, List.forall_mem_nil _⟩
  | cons a alerts ih =>
    obtain ⟨ts, h⟩ := ih
    refine ⟨min a.ts ts, List.forall_mem_cons.2 ⟨min_le_left _ _, fun b hb => ?_⟩⟩
    exact (min_le_right _ _).trans (h b hb)

/-- The server with other alerts in the M5 buffer. -/
def putM5 (c : Contents) (alerts : List PriceAlert) : Server (Body ℚ) := { c.server with
  buffers := c.server.buffers.put (rbKey (bufferName c.symbol "M5")) alerts (some (c.now + 1)) }

theorem entries_putM5 (c : Contents) (alerts : List PriceAlert) (tf : String) :
    (c.putM5 alerts).entries c.now (bufferName c.symbol tf) =
      if tf = "M5" then alerts else c.alerts tf := by
  have hkey : rbKey (bufferName c.symbol tf) = rbKey (bufferName c.symbol "M5") ↔ tf = "M5" := by
    rw [Server.rbKey_inj]
    exact String.append_right_inj _
  unfold Server.entries putM5
  simp only [Keyspace.fetch_put, hkey]
  split
  · rw [if_pos (by simp [Expiring.live])]
    rfl
  · rfl

/-- Other contents, by their M5 buffer. -/
def replaceM5 (c : Contents) (alerts : List PriceAlert) (hdecreasing : Server.Decreasing alerts)
    (hcapped : alerts.length ≤ windowCap "M5") : Contents where
  server := c.putM5 alerts
  now := c.now
  symbol := c.symbol
  decreasing tf := by
    rw [entries_putM5]
    split
    · exact hdecreasing
    · exact c.decreasing tf
  capped tf := by
    rw [entries_putM5]
    split
    · rename_i htf
      rwa [htf]
    · exact c.capped tf

theorem alerts_replaceM5 {alerts : List PriceAlert} {hdecreasing : Server.Decreasing alerts}
    {hcapped : alerts.length ≤ windowCap "M5"} (tf : String) :
    (c.replaceM5 alerts hdecreasing hcapped).alerts tf =
      if tf = "M5" then alerts else c.alerts tf :=
  entries_putM5 c alerts tf

/-- **Behind 20 alerts any closes may come**, and the fused acceleration is theirs. -/
theorem exists_older (hle : 20 ≤ (c.alerts "M5").length) (closes : List ℚ)
    (hcloses : closes.length = 20) : ∃ c' : Contents, c.SameRecent c' ∧ c'.alerts "M5" ≠ [] ∧
      (fusedAnalytics tanh c'.windows).accelM5 = acceleration closes.reverse := by
  obtain ⟨ts, hts⟩ := exists_ts_le ((c.alerts "M5").take 20)
  have holder : (olderAlerts c.symbol ts closes).length = 20 := by
    rw [← hcloses, ← congrArg List.length (olderAlerts_closes c.symbol ts closes), List.length_map]
  have hrecent : ((c.alerts "M5").take 20).length = 20 := by rw [List.length_take, min_eq_left hle]
  have hdecreasing :
      Server.Decreasing ((c.alerts "M5").take 20 ++ olderAlerts c.symbol ts closes) :=
    List.pairwise_append.2 ⟨(c.decreasing "M5").sublist (List.take_sublist _ _),
      decreasing_older _ _ _, fun a ha b hb => (ts_lt_of_mem_older hb).trans_le (hts a ha)⟩
  have hlength : ((c.alerts "M5").take 20 ++ olderAlerts c.symbol ts closes).length = 40 := by
    rw [List.length_append, hrecent, holder]
  have hcapped : ((c.alerts "M5").take 20 ++ olderAlerts c.symbol ts closes).length ≤
      windowCap "M5" := by
    rw [hlength]
    decide
  have hM5 := @alerts_replaceM5 c _ hdecreasing hcapped "M5"
  rw [if_pos rfl] at hM5
  refine ⟨c.replaceM5 _ hdecreasing hcapped, fun tf => ?_, ?_, ?_⟩
  · rw [alerts_replaceM5]
    split
    · rename_i htf
      rw [List.take_left' hrecent, htf]
    · rfl
  · rw [hM5]
    exact List.ne_nil_of_length_pos (by rw [hlength]; decide)
  · -- reversed, the window begins with its oldest 20 alerts
    have hcut : (((c.alerts "M5").take 20 ++ olderAlerts c.symbol ts closes).reverse.take 20).map
        (·.body.close) = closes.reverse := by
      rw [List.reverse_append, List.take_left' (by rw [List.length_reverse, holder]),
        List.map_reverse, olderAlerts_closes]
    rw [fusedAnalytics, windowOf_M5, hM5, trendAcceleration, if_neg (by rw [hlength]; decide), hcut]

/-- **The fused analytics are those of the wrappers, whatever came before**, exactly when the M5
buffer has fewer than 20 alerts. -/
theorem analyticsAgree_iff (c : Contents) (tanh : ℚ → ℚ) :
    c.AnalyticsAgree tanh ↔ (c.alerts "M5").length < 20 := by
  refine ⟨fun h => ?_, fun hlt => ⟨fun nowMs a ha => ?_, fun nowMs a ha => ?_, ?_⟩⟩
  · by_contra hge
    obtain ⟨c₁, hsame₁, hsome₁, haccel₁⟩ := exists_older tanh (not_lt.1 hge)
      (List.replicate 20 0) rfl
    obtain ⟨c₂, hsame₂, hsome₂, haccel₂⟩ := exists_older tanh (not_lt.1 hge)
      (List.replicate 19 0 ++ [1]) rfl
    have hsome : c.alerts "M5" ≠ [] := List.ne_nil_of_length_pos (by omega)
    have h₁ := h.recent c₁ hsame₁ 0 _ _ (fused?_of_M5 tanh hsome 0) (fused?_of_M5 tanh hsome₁ 0)
    have h₂ := h.recent c₂ hsame₂ 0 _ _ (fused?_of_M5 tanh hsome 0) (fused?_of_M5 tanh hsome₂ 0)
    rw [h₁, ← h₂, haccel₂] at haccel₁
    revert haccel₁
    decide +kernel
  · rw [fused_of_le tanh hlt.le ha]
  · rw [fused_of_le tanh hlt.le ha]
  · intro c' hsame nowMs a a' ha ha'
    have hM5 := hsame.alerts_eq hlt
    rw [eq_of_fused? tanh ha, eq_of_fused? tanh ha', fusedAnalytics, fusedAnalytics,
      volatilityIndex_windows, volatilityIndex_windows, hsame.volatility, windowOf_M5, windowOf_M5, hM5]

/-! ## Contents in a run -/

/-- The buffers of a symbol are such contents in every state that the store reaches. -/
theorem exists_of_run {caps : String → ℕ} {calls : List (Server.Call (Body ℚ))}
    (h : ∀ call ∈ calls, Server.Regular caps call) (symbol : String)
    (hcaps : ∀ tf, caps (bufferName symbol tf) ≤ windowCap tf) (now : ℤ) :
    ∃ c : Contents, c.server = run Server.step {} calls ∧ c.symbol = symbol ∧ c.now = now := by
  have hobserved tf := (Server.kept_run caps calls h).observed symbol tf now
  exact ⟨⟨_, now, symbol, fun tf => (hobserved tf).decreasing,
    fun tf => (hobserved tf).bounded.trans (hcaps tf)⟩, Server.run_server calls, rfl, rfl⟩

/-- No alerts. -/
def noAlerts : Contents where
  server := {}
  now := 0
  symbol := "BTCUSD"
  decreasing _ := List.Pairwise.nil
  capped _ := Nat.zero_le _

/-- A price that fell 20 alerts ago. -/
def fallen : Contents :=
  noAlerts.replaceM5 (olderAlerts "BTCUSD" 0 (List.replicate 20 0 ++ [1])) (decreasing_older _ _ _)
    (by decide)

/-- The snapshot says that it accelerates, the wrapper that it does not. -/
theorem fallen_disagrees : ¬ fallen.AnalyticsAgree id := by
  intro h
  have halerts : fallen.alerts "M5" = olderAlerts "BTCUSD" 0 (List.replicate 20 0 ++ [1]) :=
    alerts_replaceM5 "M5"
  have hsome : fallen.alerts "M5" ≠ [] := by
    rw [halerts]
    decide
  have haccel := h.accel 0 _ (fused?_of_M5 id hsome 0)
  rw [fusedAnalytics, windowOf_M5, computeTrendAcceleration_eq, halerts] at haccel
  revert haccel
  decide +kernel

end Contents

end Memory
