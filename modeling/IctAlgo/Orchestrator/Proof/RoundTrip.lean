import IctAlgo.Lib.Text
import IctAlgo.Orchestrator.Allowlist

/-!
# The round trip of the allowlist

* `mem_allowedGroups`: the entries of the allowlist are those of the groups that pass.
* `mem_loadKeys`: the loader has the keys of the groups in the file.
* `makeKey_eq_iff`: a key of texts without the separator is the key of the same texts only.
* `allowlist_roundTrip`: a snapshot is allowed, by the loader and by the policy gate that reads the file,
  exactly when a group with its fields passes.
-/

set_option autoImplicit false

namespace Orchestrator

open Lib

/-- The fields of a key. -/
def keyFields : List String := ["symbol", "timeframe", "session", "signal_type", "direction"]

/-- The fields of the key are texts, not empty and without the separator. -/
def PlainKey (d : Fields) : Prop :=
  ∀ key ∈ keyFields, ∃ text, d.get? key = some (.str text) ∧ text ≠ "" ∧ '|' ∉ text.toList

/-- The fields of the key that a group has are texts. -/
def TextKeys (group : List (String × Value)) : Prop :=
  ∀ key ∈ keyFields, ∀ v, group.lookup key = some v → ∃ text, v = .str text

/-- A group passes the thresholds and has the fields of the snapshot. -/
def Passes (t : GroupThresholds) (s : Fields) (group : List (String × Value)) : Prop :=
  t.admits? group = some true ∧ ∀ key ∈ keyFields, group.lookup key = s.get? key

section
variable {cv : Conv} {t : GroupThresholds} {group : List (String × Value)} {groups : List Value}
  {s : Fields}

/-! ## The builder -/

theorem mem_allowedGroups {allowed : List AllowlistEntry} (h : allowedGroups t groups = some allowed)
    (e : AllowlistEntry) : e ∈ allowed ↔
      ∃ group, .dict group ∈ groups ∧ t.admits? group = some true ∧ e = .ofGroup group := by
  induction groups generalizing allowed with
  | nil =>
    obtain rfl := Option.some.inj h
    simp
  | cons v groups ih =>
    cases v with
    | dict group =>
      simp only [allowedGroups, Option.bind_eq_bind, Option.bind_eq_some_iff] at h
      obtain ⟨admitted, hadmits, rest, hrest, heq⟩ := h
      obtain rfl := Option.some.inj heq
      have hmem : (∃ g, .dict g ∈ Value.dict group :: groups ∧ t.admits? g = some true ∧
          e = .ofGroup g) ↔ (admitted = true ∧ e = .ofGroup group) ∨ e ∈ rest := by
        rw [ih hrest]
        simp only [List.mem_cons, Value.dict.injEq]
        refine ⟨fun h' => ?_, fun h' => ?_⟩
        · obtain ⟨g, rfl | hg, hpass, he⟩ := h'
          · rw [hadmits] at hpass
            exact .inl ⟨Option.some.inj hpass, he⟩
          · exact .inr ⟨g, hg, hpass, he⟩
        · obtain ⟨rfl, he⟩ | ⟨g, hg, hpass, he⟩ := h'
          · exact ⟨group, .inl rfl, hadmits, he⟩
          · exact ⟨g, .inr hg, hpass, he⟩
      rw [hmem]
      cases admitted with
      | true => simp
      | false => simp
    | _ => cases h

/-! ## The file and the loader -/

theorem writtenList_eq (cv : Conv) (vs : List Value) : writtenList cv vs = vs.map (written cv) := by
  induction vs with
  | nil => rfl
  | cons v vs ih => rw [writtenList, ih, List.map_cons]

theorem lookup_writtenItems (cv : Conv) (items : List (String × Value)) (key : String) :
    (writtenItems cv items).lookup key = (items.lookup key).map (written cv) := by
  induction items with
  | nil => rfl
  | cons item items ih =>
    obtain ⟨k, v⟩ := item
    rw [writtenItems]
    by_cases h : key = k
    · subst h
      simp
    · rw [Dict.lookup_cons_ne h, Dict.lookup_cons_ne h, ih]

/-- A file with a list of dictionaries is loaded. -/
theorem load_spec {data : List (String × Value)} (l : AllowlistLoader)
    (hdata : data.lookup "allowed_groups" = some (.list groups))
    (hok : (loadKeys cv groups).2 = true) :
    (l.load cv (some (.dict data))).1 = true ∧
      (l.load cv (some (.dict data))).2.allowedKeys = (loadKeys cv groups).1 ∧
        (l.load cv (some (.dict data))).2.loaded = true := by
  have hgroups : cv.items? (getKey data "allowed_groups" (.list [])) = some groups := by
    rw [getKey, hdata]
    rfl
  unfold AllowlistLoader.load
  dsimp only
  rw [hgroups]
  dsimp only
  rw [if_pos hok]
  exact ⟨rfl, rfl, rfl⟩

/-- The group of an entry in the file. -/
def AllowlistEntry.inFile (cv : Conv) (e : AllowlistEntry) : List (String × Value) :=
  [("symbol", written cv e.symbol), ("timeframe", written cv e.timeframe),
    ("session", written cv e.session), ("signal_type", written cv e.signalType),
    ("direction", written cv e.direction)]

theorem mem_loadKeys (es : List AllowlistEntry) (key : String) :
    (loadKeys cv (es.map fun e => .dict (e.inFile cv))).2 = true ∧
      (key ∈ (loadKeys cv (es.map fun e => .dict (e.inFile cv))).1 ↔
        ∃ e ∈ es, fileKey cv (e.inFile cv) = some key) := by
  induction es with
  | nil => simp [loadKeys]
  | cons e es ih =>
    obtain ⟨hok, hmem⟩ := ih
    simp only [List.map_cons, loadKeys]
    refine ⟨hok, ?_⟩
    rw [List.mem_append, hmem, Option.mem_toList]
    simp

theorem fileKey_inFile (e : AllowlistEntry) : fileKey cv (e.inFile cv) =
    makeKey cv (written cv e.symbol) (written cv e.timeframe) (written cv e.session)
      (written cv e.signalType) (written cv e.direction) := by
  simp [fileKey, AllowlistEntry.inFile, getKey, List.lookup_cons]

/-! ## Keys -/

/-- The key of some texts, as many as there are texts without the separator. -/
theorem joined_eq_iff {texts plain : List String} (hlen : plain.length = texts.length)
    (hplain : ∀ x ∈ plain, x ≠ "" ∧ '|' ∉ x.toList) :
    (if (texts.map Value.str).all Value.truthy then
        some ("|".intercalate ((texts.map Value.str).map cv.text)) else none) =
      some ("|".intercalate plain) ↔ plain = texts := by
  have htext : (texts.map Value.str).map cv.text = texts := by
    rw [List.map_map]
    exact List.map_id _
  rw [htext]
  constructor
  · intro h
    split at h
    · exact Text.intercalate_inj hlen (fun x hx => (hplain x hx).2) (Option.some.inj h).symm
    · cases h
  · rintro rfl
    rw [if_pos]
    simp only [List.all_map, List.all_eq_true, Function.comp_apply, Value.truthy, decide_eq_true_eq]
    exact fun x hx => (hplain x hx).1

theorem makeKey_eq_iff {a b c d e a' b' c' d' e' : String}
    (hplain : ∀ x ∈ [a, b, c, d, e], x ≠ "" ∧ '|' ∉ x.toList) :
    makeKey cv (.str a') (.str b') (.str c') (.str d') (.str e') =
      some ("|".intercalate [a, b, c, d, e]) ↔ [a, b, c, d, e] = [a', b', c', d', e'] :=
  @joined_eq_iff cv [a', b', c', d', e'] _ rfl hplain

/-- A field of the key of an entry is a text, which is empty if the group lacks it. -/
theorem TextKeys.getKey (h : TextKeys group) {key : String} (hkey : key ∈ keyFields) :
    ∃ text, Orchestrator.getKey group key (.str "") = .str text ∧
      ∀ plain, plain ≠ "" → (plain = text ↔ group.lookup key = some (.str plain)) := by
  unfold Orchestrator.getKey
  cases hlookup : group.lookup key with
  | none =>
    refine ⟨"", rfl, fun plain hplain => ?_⟩
    simp [hplain]
  | some v =>
    obtain ⟨text, rfl⟩ := h key hkey v hlookup
    refine ⟨text, rfl, fun plain _ => ?_⟩
    simp [eq_comm]

/-- A snapshot with plain fields has a key. -/
theorem groupKey?_plain (hs : PlainKey s) : ∃ key, groupKey? cv s = some key := by
  have hall : ((["symbol", "timeframe", "session", "signal_type", "direction"].map (val s)).all
      Value.truthy) = true := by
    rw [List.all_map, List.all_eq_true]
    intro key hkey
    obtain ⟨text, hget, hne, -⟩ := hs key hkey
    simp [val, Dict.getD, hget, Value.truthy, hne]
  unfold groupKey?
  rw [if_pos hall]
  exact ⟨_, rfl⟩

/-- **The entry of a group has the key of a snapshot exactly when the group has its fields.** -/
theorem fileKey_ofGroup_iff (hgroup : TextKeys group) (hs : PlainKey s) :
    fileKey cv ((AllowlistEntry.ofGroup group).inFile cv) = groupKey? cv s ↔
      ∀ key ∈ keyFields, group.lookup key = s.get? key := by
  obtain ⟨a, ha, hane, hasep⟩ := hs "symbol" (by decide)
  obtain ⟨b, hb, hbne, hbsep⟩ := hs "timeframe" (by decide)
  obtain ⟨c, hc, hcne, hcsep⟩ := hs "session" (by decide)
  obtain ⟨d, hd, hdne, hdsep⟩ := hs "signal_type" (by decide)
  obtain ⟨e, he, hene, hesep⟩ := hs "direction" (by decide)
  have hkey : groupKey? cv s = some ("|".intercalate [a, b, c, d, e]) := by
    simp [groupKey?, val, Dict.getD, ha, hb, hc, hd, he, Value.truthy, hane, hbne, hcne, hdne, hene,
      Conv.text]
  obtain ⟨a', ha', haiff⟩ := hgroup.getKey (show "symbol" ∈ keyFields by decide)
  obtain ⟨b', hb', hbiff⟩ := hgroup.getKey (show "timeframe" ∈ keyFields by decide)
  obtain ⟨c', hc', hciff⟩ := hgroup.getKey (show "session" ∈ keyFields by decide)
  obtain ⟨d', hd', hdiff⟩ := hgroup.getKey (show "signal_type" ∈ keyFields by decide)
  obtain ⟨e', he', heiff⟩ := hgroup.getKey (show "direction" ∈ keyFields by decide)
  have hentry : fileKey cv ((AllowlistEntry.ofGroup group).inFile cv) =
      makeKey cv (.str a') (.str b') (.str c') (.str d') (.str e') := by
    rw [fileKey_inFile]
    simp only [AllowlistEntry.ofGroup, ha', hb', hc', hd', he', written]
  rw [hentry, hkey, makeKey_eq_iff (by simp [*])]
  simp only [List.cons.injEq, and_true, haiff a hane, hbiff b hbne, hciff c hcne, hdiff d hdne,
    heiff e hene, keyFields, List.forall_mem_cons, ha, hb, hc, hd, he, List.not_mem_nil,
    false_implies, implies_true]

/-! ## The round trip -/

/-- The entries in a file that was built. -/
theorem buildAllowlist_spec {utcnow : String} {summary : Value} {file : List (String × Value)}
    (h : buildAllowlist cv t utcnow summary = some file) :
    ∃ es : List AllowlistEntry,
      file.lookup "allowed_groups" = some (.list (es.map AllowlistEntry.toDict)) ∧
      ∀ e, e ∈ es ↔ ∃ groups ∈ summaryGroups cv summary, ∃ group, .dict group ∈ groups ∧
        t.admits? group = some true ∧ e = .ofGroup group := by
  simp only [buildAllowlist, Option.bind_eq_bind, Option.bind_eq_some_iff, filterGroups,
    Option.map_eq_some_iff] at h
  obtain ⟨groups, hgroups, es, ⟨allowed, hallowed, rfl⟩, heq⟩ := h
  obtain rfl := Option.some.inj heq
  refine ⟨_, rfl, fun e => ?_⟩
  rw [List.mem_insertionSort, mem_allowedGroups hallowed, hgroups]
  simp

/-- The loader loads a file that was built, and has the keys of the groups that pass. -/
theorem load_built {utcnow : String} {summary : Value} {file : List (String × Value)}
    (l : AllowlistLoader) (h : buildAllowlist cv t utcnow summary = some file) :
    (l.load cv (some (written cv (.dict file)))).2.loaded = true ∧
      ∀ key, key ∈ (l.load cv (some (written cv (.dict file)))).2.allowedKeys ↔
        ∃ groups ∈ summaryGroups cv summary, ∃ group, .dict group ∈ groups ∧
          t.admits? group = some true ∧
            fileKey cv ((AllowlistEntry.ofGroup group).inFile cv) = some key := by
  obtain ⟨es, hlookup, hes⟩ := buildAllowlist_spec h
  have hwritten : (writtenItems cv file).lookup "allowed_groups" =
      some (.list (es.map fun e => .dict (e.inFile cv))) := by
    rw [lookup_writtenItems, hlookup, Option.map_some, written, writtenList_eq, List.map_map]
    rfl
  have hkeys := @mem_loadKeys cv es
  obtain ⟨-, hallowed, hloaded⟩ := load_spec l hwritten (hkeys "").1
  refine ⟨hloaded, fun key => ?_⟩
  rw [written, hallowed, (hkeys key).2]
  refine ⟨fun h' => ?_, fun h' => ?_⟩
  · obtain ⟨e, he, hkey⟩ := h'
    obtain ⟨groups, hgroups, group, hgroup, hadmits, rfl⟩ := (hes e).1 he
    exact ⟨groups, hgroups, group, hgroup, hadmits, hkey⟩
  · obtain ⟨groups, hgroups, group, hgroup, hadmits, hkey⟩ := h'
    exact ⟨_, (hes _).2 ⟨groups, hgroups, group, hgroup, hadmits, rfl⟩, hkey⟩

/-- The snapshot's key is a key of the file exactly when a group with its fields passes. -/
theorem key_mem_iff {utcnow : String} {summary : Value} {file : List (String × Value)}
    (l : AllowlistLoader) (h : buildAllowlist cv t utcnow summary = some file)
    (htexts : ∀ groups ∈ summaryGroups cv summary, ∀ group, .dict group ∈ groups → TextKeys group)
    (hs : PlainKey s) :
    ∃ key, groupKey? cv s = some key ∧
      (key ∈ (l.load cv (some (written cv (.dict file)))).2.allowedKeys ↔
        ∃ groups ∈ summaryGroups cv summary, ∃ group, .dict group ∈ groups ∧ Passes t s group) := by
  obtain ⟨key, hkey⟩ := @groupKey?_plain cv s hs
  refine ⟨key, hkey, ?_⟩
  rw [(load_built l h).2]
  refine ⟨fun h' => ?_, fun h' => ?_⟩
  · obtain ⟨groups, hgroups, group, hgroup, hadmits, hfile⟩ := h'
    refine ⟨groups, hgroups, group, hgroup, hadmits, ?_⟩
    rw [← fileKey_ofGroup_iff (htexts groups hgroups group hgroup) hs, hfile, hkey]
  · obtain ⟨groups, hgroups, group, hgroup, hadmits, hfields⟩ := h'
    refine ⟨groups, hgroups, group, hgroup, hadmits, ?_⟩
    rw [← hkey]
    exact (fileKey_ofGroup_iff (htexts groups hgroups group hgroup) hs).2 hfields

/-- The policy gate with the file lets a snapshot through exactly when a group with its fields
passes. -/
theorem allowlistVeto?_eq_none_iff {cfg : GateConfig} {utcnow : String} {summary : Value}
    {file : List (String × Value)} (l : AllowlistLoader) (henabled : allowlistEnabled cfg = true)
    (h : buildAllowlist cv t utcnow summary = some file)
    (htexts : ∀ groups ∈ summaryGroups cv summary, ∀ group, .dict group ∈ groups → TextKeys group)
    (hs : PlainKey s) :
    allowlistVeto? cv cfg (l.load cv (some (written cv (.dict file)))).2.enabledKeys s = none ↔
      ∃ groups ∈ summaryGroups cv summary, ∃ group, .dict group ∈ groups ∧ Passes t s group := by
  obtain ⟨key, hkey, hmem⟩ := key_mem_iff l h htexts hs
  rw [← hmem, AllowlistLoader.enabledKeys, if_pos (load_built l h).1, allowlistVeto?, hkey]
  simp [henabled]

end

/-- **The round trip of the allowlist**, to the loader and to the policy gate with its keys. -/
theorem allowlist_roundTrip (cv : Conv) (t : GroupThresholds) (utcnow : String) (summary : Value)
    (file : List (String × Value)) (l : AllowlistLoader) (s : Fields)
    (hbuild : buildAllowlist cv t utcnow summary = some file)
    (htexts : ∀ groups ∈ summaryGroups cv summary, ∀ group, .dict group ∈ groups → TextKeys group)
    (hs : PlainKey s) :
    ((l.load cv (some (written cv (.dict file)))).2.isAllowed (groupKey? cv s) = true ↔
      ∃ groups ∈ summaryGroups cv summary, ∃ group, .dict group ∈ groups ∧ Passes t s group) ∧
    ∀ cfg, allowlistEnabled cfg = true →
      (allowlistVeto? cv cfg (l.load cv (some (written cv (.dict file)))).2.enabledKeys s = none ↔
        ∃ groups ∈ summaryGroups cv summary, ∃ group, .dict group ∈ groups ∧ Passes t s group) := by
  refine ⟨?_, fun cfg henabled => allowlistVeto?_eq_none_iff l henabled hbuild htexts hs⟩
  obtain ⟨key, hkey, hmem⟩ := key_mem_iff l hbuild htexts hs
  rw [← hmem, hkey, AllowlistLoader.isAllowed, Option.any_some, List.contains_iff_mem]

/-- A group of London with 60 samples, and its snapshot. -/
def london : List (String × Value) :=
  [("symbol", .str "EURUSD"), ("timeframe", .str "1h"), ("session", .str "london"),
    ("signal_type", .str "bearish_bos"), ("direction", .str "short")]

def londonSummary : Value :=
  .dict [("groups", .list [.dict (london ++ [("sample_size", .int 60),
    ("expectancy", .float (.fin (1 / 4))), ("max_drawdown_r", .float (.fin 3)),
    ("max_loss_streak", .int 4)])])]

def londonFile : List (String × Value) :=
  [("timestamp", .str "2024-01-01T00:00:00Z"), ("source_replay_summary", .str ""),
    ("thresholds", .dict [("min_samples", .int 50), ("min_expectancy", .float (.fin (1 / 5))),
      ("max_drawdown_r", .float (.fin 10)), ("max_loss_streak", .int 7)]),
    ("total_allowed", .int 1), ("total_groups_evaluated", .int 1),
    ("allowed_groups", .list [.dict london])]

theorem allowlist_roundTrip_london :
    ((({} : AllowlistLoader).load .plain (some (written .plain (.dict londonFile)))).2.isAllowed
      (groupKey? .plain ⟨london, by decide⟩) = true) ↔
      ∃ groups ∈ summaryGroups .plain londonSummary, ∃ group, .dict group ∈ groups ∧
        Passes {} ⟨london, by decide⟩ group := by
  refine (allowlist_roundTrip .plain {} "2024-01-01T00:00:00" londonSummary londonFile {}
    ⟨london, by decide⟩ (by decide +kernel) ?_ ?_).1
  · intro groups hgroups group hgroup
    obtain rfl := Option.some.inj hgroups
    obtain rfl := Value.dict.inj (List.mem_singleton.1 hgroup)
    simp [TextKeys, keyFields, london, List.lookup_cons]
  · simp [PlainKey, keyFields, london, Dict.get?, List.lookup_cons]

end Orchestrator
