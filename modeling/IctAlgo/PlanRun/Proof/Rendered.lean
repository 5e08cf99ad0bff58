import IctAlgo.PlanRun.Notify

/-!
# Rendered results

Templates that refer to the leaves of a results map (`Piece`), in the dot form and in the bracket form.
`Renders`: the step renders them all with the values of the leaves.

* `flattenResults_get?_word`: which flat keys a field can read at all.
* `object_bracket`, `object_dot`: what the two forms read; the dot form reads attributes.
* `templates_render_iff`: when the leaves are rendered.
* `dot_raises`: a step id that names no attribute stops the dot form.
-/

set_option autoImplicit false

namespace PlanRun

open Lib Lib.Format Lib.Raising

/-! ## Definitions -/

namespace Result

section
variable {L : Type}

/-- The value at a path. -/
def at? : Result L → List String → Option (Result L)
  | r, [] => some r
  | .dict items, k :: ks => (items.lookup k).bind fun r => at? r ks
  | .leaf _, _ :: _ => none

mutual

/-- The keys of all dictionaries are identifiers. -/
def Named (u : Unicode) : Result L → Prop
  | .leaf _ => True
  | .dict items => NamedItems u items

def NamedItems (u : Unicode) : List (String × Result L) → Prop
  | [] => True
  | (k, v) :: items => u.isIdentifier k.toList = true ∧ Named u v ∧ NamedItems u items

end

end

end Result

/-- The results of earlier steps. -/
structure ResultsMap (u : Unicode) (L : Type) where
  results : Dict String (Result L)
  named : Result.NamedItems u results.items

section
variable {L : Type}

/-- The results as one value. -/
def ResultsMap.root {u : Unicode} (m : ResultsMap u L) : Result L := .dict m.results.items

inductive Form
  | dot
  | bracket
  deriving DecidableEq

def Form.access : Form → String → Access
  | dot, k => .attr k.toList
  | bracket, k => .item k.toList

/-- `results.s.k` or `results[s][k]`. -/
def reference (form : Form) (path : List String) : FieldName where
  first := "results".toList
  path := path.map form.access

/-- The attributes of a path, one after the other. -/
def attributes (py : Python L) : Result L → List String → Except Raised (Result L)
  | r, [] => .ok r
  | r, k :: ks => do
    let r ← py.getattr r k
    attributes py r ks

/-- A piece of a payload: text, or a reference to a leaf. -/
inductive Piece (root : Result L)
  | text (t : String)
  | leaf (form : Form) (path : List String) (v : L) (h : root.at? path = some (.leaf v))

namespace Piece

variable {root : Result L}

def part : Piece root → Part
  | text t => .text t.toList
  | leaf form path _ _ => .field (reference form path)

/-- The references are of a form. -/
def OfForm (forms : Form → Prop) : Piece root → Prop
  | text _ => True
  | leaf form _ _ _ => forms form

/-- The leaf's own value, as it is written. -/
def expected (py : Python L) : Piece root → Except Raised String
  | text t => .ok t
  | leaf _ _ v _ => py.format (.leaf v) ""

/-- What stands in the payload for a piece: the leaf itself, or what its keys lead to as attributes. -/
def rendered (py : Python L) : Piece root → Except Raised String
  | text t => .ok t
  | leaf .bracket _ v _ => py.format (.leaf v) ""
  | leaf .dot path _ _ => do
    let r ← attributes py root path
    py.format r ""

end Piece

def payloadText {root : Result L} (pieces : List (Piece root)) : String :=
  String.ofList (write (pieces.map Piece.part))

/-- What a step adds to the flat keys that are words. -/
def flatEntry (key : String) (r : Result L) : Option (Result L) :=
  match r with
  | .leaf v => if startsWithResults key then some (.leaf v) else none
  | .dict _ => none

section
variable (py : Python L)

/-- The step succeeds and hands on the leaves' own values, in all payloads with such references. -/
def Renders (m : ResultsMap py.unicode L) (forms : Form → Prop) : Prop :=
  ∀ pieces : List (Piece m.root), (∀ piece ∈ pieces, piece.OfForm forms) →
    ∃ texts, List.Forall₂ (fun piece text => piece.expected py = .ok text) pieces texts ∧
      ∀ (channel : String) (notify : Notify L) (ctx : ExecutionContext (Result L)),
        ctx.results = m.results →
        runNotify py notify ⟨some channel, some (payloadText pieces)⟩ ctx =
          (notify channel (String.join texts) ctx).map fun _ => notified py

/-- Every leaf can be written. -/
def Writes (m : ResultsMap py.unicode L) : Prop :=
  ∀ path v, m.root.at? path = some (.leaf v) → ∃ text, py.format (.leaf v) "" = .ok text

/-- The keys of each leaf are the names of attributes that lead to what is written like the leaf. -/
def AttributesLead (m : ResultsMap py.unicode L) : Prop :=
  ∀ path v, m.root.at? path = some (.leaf v) → ∃ text r, py.format (.leaf v) "" = .ok text ∧
    attributes py m.root path = .ok r ∧ py.format r "" = .ok text

end

end

/-! ## Names on a path -/

section
variable {L : Type} {u : Unicode}

theorem named_of_lookup {items : List (String × Result L)} (h : Result.NamedItems u items) {k : String}
    {v : Result L} (hk : items.lookup k = some v) : u.isIdentifier k.toList = true ∧ v.Named u := by
  induction items with
  | nil => cases hk
  | cons item items ih =>
    obtain ⟨k', v'⟩ := item
    obtain ⟨hname, hvalue, hrest⟩ := h
    by_cases hkey : k = k'
    · subst hkey
      rw [List.lookup_cons_self] at hk
      obtain rfl := Option.some.inj hk
      exact ⟨hname, hvalue⟩
    · rw [Dict.lookup_cons_ne hkey] at hk
      exact ih hrest hk

theorem isIdentifier_of_at? {r w : Result L} (h : r.Named u) {path : List String}
    (hpath : r.at? path = some w) : ∀ k ∈ path, u.isIdentifier k.toList = true := by
  induction path generalizing r with
  | nil => exact fun k hk => absurd hk List.not_mem_nil
  | cons k ks ih =>
    cases r with
    | leaf v => cases hpath
    | dict items =>
      obtain ⟨v, hv, hrest⟩ := Option.bind_eq_some_iff.1 hpath
      obtain ⟨hname, hvalue⟩ := named_of_lookup h hv
      exact List.forall_mem_cons.2 ⟨hname, ih hvalue hrest⟩

theorem isIdentifier_results : u.isIdentifier "results".toList = true := by
  have hletters : ∀ c ∈ "results".toList, c.isAlpha = true := List.all_eq_true.1 (by decide)
  have hcons : "results".toList = 'r' :: "esults".toList := rfl
  rw [hcons] at hletters ⊢
  rw [List.forall_mem_cons] at hletters
  simp only [Unicode.isIdentifier, Bool.and_eq_true, List.all_eq_true]
  exact ⟨u.start_letter 'r' hletters.1, fun c hc => u.continue_letter c (hletters.2 c hc)⟩

/-- A reference whose keys are identifiers is a field. -/
theorem readable_reference (form : Form) {path : List String}
    (hpath : ∀ k ∈ path, u.isIdentifier k.toList = true) : (reference form path).Readable u := by
  obtain ⟨hplain, hnumber⟩ := plain_of_isIdentifier (u := u) isIdentifier_results
  refine ⟨hplain, hnumber, fun a ha => ?_⟩
  obtain ⟨k, hk, rfl⟩ := List.mem_map.1 ha
  cases form with
  | dot => exact (plain_of_isIdentifier (hpath k hk)).1
  | bracket => exact (plain_of_isIdentifier (hpath k hk)).1

end

/-! ## Flat keys -/

theorem mem_bracketKey (keyDot : String) : '[' ∈ (s!"results[{bracketed keyDot}]").toList := by
  simp only [String.toList_append, List.mem_append]
  exact .inl (.inl (by decide))

theorem mem_dotKey (keyDot : String) : '.' ∈ (s!"results.{keyDot}").toList := by
  rw [String.toList_append, List.mem_append]
  exact .inl (by decide)

theorem mem_below (keyDot k : String) : '.' ∈ (s!"{keyDot}.{k}").toList := by
  simp only [String.toList_append, List.mem_append]
  exact .inl (.inr (by decide))

section
variable {L : Type} {key : String} (hword : ∀ c ∈ key.toList, c ≠ '.' ∧ c ≠ '[')
include hword

theorem ne_of_mark {text : String} {c : Char} (hc : c = '.' ∨ c = '[') (hmem : c ∈ text.toList) :
    key ≠ text := by
  rintro rfl
  obtain ⟨hdot, hbracket⟩ := hword c hmem
  exact hc.elim hdot hbracket

/-- No field reads the keys of a leaf below another key. -/
theorem setLeaf_get?_of_dot {keyDot : String} (hdot : '.' ∈ keyDot.toList) (v : L)
    (flat : Dict String (Result L)) : (setLeaf flat keyDot v).get? key = flat.get? key := by
  have hbracket : key ≠ s!"results[{bracketed keyDot}]" :=
    ne_of_mark hword (.inr rfl) (mem_bracketKey _)
  have hflat : key ≠ if startsWithResults keyDot then keyDot else s!"results.{keyDot}" := by
    split
    · exact ne_of_mark hword (.inl rfl) hdot
    · exact ne_of_mark hword (.inl rfl) (mem_dotKey _)
  unfold setLeaf
  rw [Dict.get?_set_ne _ _ hbracket, Dict.get?_set_ne _ _ hflat]

theorem setLeaf_get? {stepId : String} (v : L) (flat : Dict String (Result L)) :
    (setLeaf flat stepId v).get? key =
      if key = stepId ∧ startsWithResults stepId = true then some (.leaf v) else flat.get? key := by
  have hbracket : key ≠ s!"results[{bracketed stepId}]" :=
    ne_of_mark hword (.inr rfl) (mem_bracketKey _)
  unfold setLeaf
  rw [Dict.get?_set_ne _ _ hbracket]
  by_cases hstarts : startsWithResults stepId = true
  · simp only [hstarts, ↓reduceIte, and_true]
    exact Dict.get?_set _ _ _ _
  · have hflat : key ≠ s!"results.{stepId}" := ne_of_mark hword (.inl rfl) (mem_dotKey _)
    simp only [hstarts, Bool.false_eq_true, ↓reduceIte, and_false]
    exact Dict.get?_set_ne _ _ hflat

end

mutual

theorem recurse_get?_of_dot {L : Type} {key : String} (hword : ∀ c ∈ key.toList, c ≠ '.' ∧ c ≠ '[')
    {keyDot : String} (hdot : '.' ∈ keyDot.toList) :
    ∀ (r : Result L) (flat : Dict String (Result L)), (recurse keyDot r flat).get? key = flat.get? key
  | .leaf v, flat => setLeaf_get?_of_dot hword hdot v flat
  | .dict items, flat =>
    recurseItems_get?_of_ne hword (fun h => by rw [h] at hdot; cases hdot) items flat

/-- A key below a step has a dot. -/
theorem recurseItems_get?_of_ne {L : Type} {key : String}
    (hword : ∀ c ∈ key.toList, c ≠ '.' ∧ c ≠ '[') {keyDot : String} (hne : keyDot ≠ "") :
    ∀ (items : List (String × Result L)) (flat : Dict String (Result L)),
      (recurseItems keyDot items flat).get? key = flat.get? key
  | [], _ => rfl
  | (k, v) :: items, flat => by
    rw [recurseItems, if_neg hne, recurseItems_get?_of_ne hword hne items,
      recurse_get?_of_dot hword (mem_below keyDot k) v]

end

section
variable {L : Type} {key : String} (hword : ∀ c ∈ key.toList, c ≠ '.' ∧ c ≠ '[')
include hword

theorem recurse_get?_step {stepId : String} (hne : stepId ≠ "") (r : Result L)
    (flat : Dict String (Result L)) : (recurse stepId r flat).get? key =
      if key = stepId then (flatEntry key r).or (flat.get? key) else flat.get? key := by
  cases r with
  | leaf v =>
    rw [recurse, setLeaf_get? hword]
    by_cases hkey : key = stepId
    · subst hkey
      by_cases hstarts : startsWithResults key = true
      · simp [flatEntry, hstarts]
      · simp [flatEntry, hstarts]
    · simp [hkey]
  | dict items =>
    rw [recurse, recurseItems_get?_of_ne hword hne]
    simp [flatEntry]

theorem foldl_recurse_get? {items : List (String × Result L)} (hids : ∀ item ∈ items, item.1 ≠ "")
    (hnodup : (items.map Prod.fst).Nodup) (flat : Dict String (Result L)) :
    (items.foldl (fun flat item => recurse item.1 item.2 flat) flat).get? key =
      ((items.lookup key).bind (flatEntry key)).or (flat.get? key) := by
  induction items generalizing flat with
  | nil => rfl
  | cons item items ih =>
    obtain ⟨stepId, r⟩ := item
    rw [List.forall_mem_cons] at hids
    obtain ⟨hfresh, hnodup⟩ := List.nodup_cons.1 hnodup
    rw [List.foldl_cons, ih hids.2 hnodup, recurse_get?_step hword hids.1]
    by_cases hkey : key = stepId
    · subst hkey
      have hnone : items.lookup key = none :=
        List.lookup_eq_none_iff.2 fun p hp => by
          have hne : key ≠ p.1 := fun h => hfresh (List.mem_map.2 ⟨p, hp, h.symm⟩)
          simpa using hne
      simp [hnone]
    · rw [if_neg hkey, Dict.lookup_cons_ne hkey]

/-- Of the flat keys, the word of a field can be `results` or the id of a step that begins with it. -/
theorem flattenResults_get?_word {results : Dict String (Result L)}
    (hids : ∀ item ∈ results.items, item.1 ≠ "") :
    (flattenResults results).get? key =
      if key = "results" then some (.dict results.items)
      else (results.get? key).bind (flatEntry key) := by
  unfold flattenResults
  rw [Dict.get?_set, foldl_recurse_get? hword hids results.nodup, Dict.get?_empty, Option.or_none]
  rfl

end

/-- The results are read under their name. -/
theorem flattenResults_get?_results {L : Type} (results : Dict String (Result L)) :
    (flattenResults results).get? "results" = some (.dict results.items) := Dict.get?_set_self _ _ _

/-! ## Fields -/

section
variable {L : Type} (py : Python L)

/-- A key that is an identifier is read as a text. -/
theorem keyOf_identifier {k : String} (hk : py.unicode.isIdentifier k.toList = true) :
    keyOf py.objects k.toList = .ok (.text k) := by
  have hnumber : NotNumber py.objects.unicode k.toList := (plain_of_isIdentifier hk).2
  unfold keyOf
  rw [index?_of_notNumber hnumber]
  exact congrArg (fun text => Except.ok (Key.text text)) String.ofList_toList

theorem walk_bracket {r w : Result L} {path : List String}
    (hnames : ∀ k ∈ path, py.unicode.isIdentifier k.toList = true) (hpath : r.at? path = some w) :
    walk py.objects (accessorsOf (path.map Form.bracket.access)) r = .ok w := by
  induction path generalizing r with
  | nil =>
    obtain rfl := Option.some.inj hpath
    rfl
  | cons k ks ih =>
    rw [List.forall_mem_cons] at hnames
    cases r with
    | leaf v => cases hpath
    | dict items =>
      obtain ⟨v, hv, hrest⟩ := Option.bind_eq_some_iff.1 hpath
      have hitem : py.getitem (.dict items) (.text k) = .ok v := by simp [Python.getitem, hv]
      rw [List.map_cons]
      change (do
        let key ← keyOf py.objects k.toList
        let o ← py.getitem (.dict items) key
        walk py.objects (accessorsOf (ks.map Form.bracket.access)) o) = _
      rw [keyOf_identifier py hnames.1]
      change (py.getitem (.dict items) (.text k) >>= fun o =>
        walk py.objects (accessorsOf (ks.map Form.bracket.access)) o) = _
      rw [hitem]
      exact ih hnames.2 hrest

theorem walk_dot (r : Result L) (path : List String) :
    walk py.objects (accessorsOf (path.map Form.dot.access)) r = attributes py r path := by
  induction path generalizing r with
  | nil => rfl
  | cons k ks ih =>
    change (py.getattr r (String.ofList k.toList) >>= fun o =>
      walk py.objects (accessorsOf (ks.map Form.dot.access)) o) = _
    rw [String.ofList_toList]
    exact bind_congr fun o => ih o

variable (m : ResultsMap py.unicode L)

/-- Both forms start at the dictionary of the results. -/
theorem object_reference (form : Form) (path : List String) :
    (reference form path).object py.objects (flattenResults m.results).get? =
      walk py.objects (accessorsOf (path.map form.access)) m.root := by
  have hfirst : (flattenResults m.results).get? (String.ofList "results".toList) = some m.root := by
    rw [String.ofList_toList]
    exact flattenResults_get?_results m.results
  unfold FieldName.object reference
  rw [hfirst]

/-- The bracket form reads the leaf. -/
theorem object_bracket {path : List String} {v : L} (h : m.root.at? path = some (.leaf v)) :
    (reference .bracket path).object py.objects (flattenResults m.results).get? =
      .ok (.leaf v) := by
  rw [object_reference]
  exact walk_bracket py (isIdentifier_of_at? (u := py.unicode) (r := m.root) m.named h) h

/-- The dot form reads attributes. -/
theorem object_dot (path : List String) :
    (reference .dot path).object py.objects (flattenResults m.results).get? =
      attributes py m.root path := by
  rw [object_reference]
  exact walk_dot py m.root path

end

/-! ## Payloads -/

section
variable {L : Type} {py : Python L} (m : ResultsMap py.unicode L)

theorem text?_part (piece : Piece m.root) :
    piece.part.text? py.objects (flattenResults m.results).get? = piece.rendered py := by
  cases piece with
  | text t => exact congrArg Except.ok String.ofList_toList
  | leaf form path v h =>
    cases form with
    | dot =>
      change ((reference .dot path).object py.objects _ >>= fun o => py.format o "") = _
      rw [object_dot]
      rfl
    | bracket =>
      change ((reference .bracket path).object py.objects _ >>= fun o => py.format o "") = _
      rw [object_bracket py m h]
      rfl

theorem format_payloadText (pieces : List (Piece m.root)) :
    format py.objects (flattenResults m.results).get? (payloadText pieces).toList = do
      let texts ← pieces.mapM (Piece.rendered py)
      return String.join texts := by
  have hfields : ∀ f, Part.field f ∈ pieces.map Piece.part → f.Readable py.objects.unicode := by
    intro f hf
    obtain ⟨piece, -, hpiece⟩ := List.mem_map.1 hf
    cases piece with
    | text t => cases hpiece
    | leaf form path v h =>
      cases hpiece
      exact readable_reference form (isIdentifier_of_at? (r := m.root) m.named h)
  have htexts : (fun piece : Piece m.root =>
      piece.part.text? py.objects (flattenResults m.results).get?) = Piece.rendered py :=
    funext (text?_part m)
  rw [payloadText, String.toList_ofList, format_write hfields, List.mapM_map]
  exact congrArg (fun f : Piece m.root → Except Raised String => do
    let texts ← pieces.mapM f
    return String.join texts) htexts

/-- A payload is rendered piece by piece. -/
theorem renderPayload_ok_iff {pieces : List (Piece m.root)} {text : String} :
    renderPayload py (payloadText pieces) m.results = .ok text ↔
      ∃ texts, List.Forall₂ (fun piece text => piece.rendered py = .ok text) pieces texts ∧
        text = String.join texts := by
  have hcaught : ∀ e : Raised, ¬ (do
      let text ← e.str
      (.error (.shown (.other "RuntimeError") s!"failed to render payload: {text}") :
        Except Raised String)) = .ok text := by
    intro e h
    obtain ⟨_, _, h⟩ := bind_ok_iff.1 h
    cases h
  unfold renderPayload
  rw [catching_ok_iff, format_payloadText, bind_ok_iff]
  simp only [mapM_ok_iff, hcaught, and_false, exists_false, or_false, pure, Except.pure,
    Except.ok.injEq]
  exact exists_congr fun texts => and_congr_right fun _ => eq_comm

/-- A step id that names no attribute of a dictionary: the dot form fails. -/
theorem dot_raises {stepId : String} {ks : List String} {v : L}
    (h : m.root.at? (stepId :: ks) = some (.leaf v)) {cls : ExceptionClass} {text : String}
    (hcls : cls ≠ .baseException) (hattr : py.getattr m.root stepId = .error (.shown cls text)) :
    renderPayload py (payloadText [.leaf .dot (stepId :: ks) v h]) m.results =
      .error (.shown (.other "RuntimeError") s!"failed to render payload: {text}") := by
  have hpiece : Piece.rendered py (.leaf .dot (stepId :: ks) v h : Piece m.root) =
      .error (.shown cls text) := by
    simp only [Piece.rendered, attributes, hattr]
    rfl
  have hformat : format py.objects (flattenResults m.results).get?
      (payloadText [.leaf .dot (stepId :: ks) v h]).toList = .error (.shown cls text) := by
    rw [format_payloadText, List.mapM_cons, hpiece]
    rfl
  have hexception : (Raised.shown cls text).isException = true := decide_eq_true hcls
  simp only [renderPayload, hformat, catching, hexception, ↓reduceIte]
  rfl

omit m in
theorem runNotify_eq (notify : Notify L) (channel payload : String)
    (ctx : ExecutionContext (Result L)) :
    runNotify py notify ⟨some channel, some payload⟩ ctx =
      renderPayload py payload ctx.results >>= fun rendered =>
        (notify channel rendered ctx).map fun _ => notified py := by
  change (renderPayload py payload ctx.results >>= fun rendered =>
    notify channel rendered ctx >>= fun _ => .ok (notified py)) = _
  refine bind_congr fun rendered => ?_
  cases notify channel rendered ctx with
  | ok => rfl
  | error e => rfl

/-- The step hands on a text if and only if its payload is rendered as that text. -/
theorem runNotify_iff {payload text : String} :
    (∀ (channel : String) (notify : Notify L) (ctx : ExecutionContext (Result L)),
      ctx.results = m.results → runNotify py notify ⟨some channel, some payload⟩ ctx =
        (notify channel text ctx).map fun _ => notified py) ↔
      renderPayload py payload m.results = .ok text := by
  refine ⟨fun h => ?_, fun h channel notify ctx hctx => ?_⟩
  · -- a messenger that succeeds at this text only
    obtain ⟨notify, hsent⟩ : ∃ notify : Notify L, ∀ channel sent ctx, notify channel sent ctx =
        if sent = text then .ok () else .error (.shown .valueError "") := ⟨_, fun _ _ _ => rfl⟩
    have hrun := h "" notify ⟨.dict [], .dict [], "", m.results⟩ rfl
    rw [runNotify_eq, hsent, if_pos rfl] at hrun
    obtain ⟨rendered, hrendered, hrun⟩ := bind_ok_iff.1 hrun
    by_cases hsame : rendered = text
    · rw [← hsame]
      exact hrendered
    · rw [hsent, if_neg hsame] at hrun
      cases hrun
  · rw [runNotify_eq, hctx, h]
    rfl

/-- All references of a form are rendered when each of them is. -/
theorem renders_iff {forms : Form → Prop} : Renders py m forms ↔
    ∀ piece : Piece m.root, piece.OfForm forms →
      ∃ text, piece.expected py = .ok text ∧ piece.rendered py = .ok text := by
  refine ⟨fun h piece hform => ?_, fun h pieces hforms => ?_⟩
  · obtain ⟨texts, hexpected, hstep⟩ := h [piece] (List.forall_mem_singleton.2 hform)
    obtain ⟨text, rest, htext, hnil, rfl⟩ := List.forall₂_cons_left_iff.1 hexpected
    obtain rfl := List.forall₂_nil_left_iff.1 hnil
    obtain ⟨texts, hrendered, hjoin⟩ :=
      (renderPayload_ok_iff m).1 ((runNotify_iff m).1 fun channel notify => hstep channel notify)
    obtain ⟨text', rest, htext', hnil, rfl⟩ := List.forall₂_cons_left_iff.1 hrendered
    obtain rfl := List.forall₂_nil_left_iff.1 hnil
    have hsame : text = text' := by simpa [String.join_cons] using hjoin
    exact ⟨text, htext, hsame ▸ htext'⟩
  · obtain ⟨texts, htexts⟩ := exists_forall₂ (fun piece hpiece => h piece (hforms piece hpiece))
    refine ⟨texts, htexts.imp fun _ _ h => h.1, ?_⟩
    exact (runNotify_iff m).2 ((renderPayload_ok_iff m).2 ⟨texts, htexts.imp fun _ _ h => h.2, rfl⟩)

/-- **Payloads with references to leaves.** The bracket form renders every leaf that can be written. The
dot form does so only where the keys of all leaves, as attributes of the dictionary of the results,
lead to what is written like the leaf. -/
theorem templates_render_iff : (Renders py m (· = .bracket) ↔ Writes py m) ∧
    (Renders py m (fun _ => True) ↔ AttributesLead py m) := by
  rw [renders_iff, renders_iff]
  refine ⟨⟨fun h path v hleaf => ?_, fun h piece hform => ?_⟩,
    fun h path v hleaf => ?_, fun h piece _ => ?_⟩
  · obtain ⟨text, hexpected, -⟩ := h (.leaf .bracket path v hleaf) rfl
    exact ⟨text, hexpected⟩
  · cases piece with
    | text t => exact ⟨t, rfl, rfl⟩
    | leaf form path v hleaf =>
      obtain rfl : form = .bracket := hform
      obtain ⟨text, htext⟩ := h path v hleaf
      exact ⟨text, htext, htext⟩
  · obtain ⟨text, hexpected, hrendered⟩ := h (.leaf .dot path v hleaf) trivial
    obtain ⟨r, hr, hformat⟩ := bind_ok_iff.1 hrendered
    exact ⟨text, r, hexpected, hr, hformat⟩
  · cases piece with
    | text t => exact ⟨t, rfl, rfl⟩
    | leaf form path v hleaf =>
      obtain ⟨text, r, hexpected, hr, hformat⟩ := h path v hleaf
      cases form with
      | dot => exact ⟨text, hexpected, bind_ok_iff.2 ⟨r, hr, hformat⟩⟩
      | bracket => exact ⟨text, hexpected, hexpected⟩

end

/-! ## A form that is not read -/

def digits : List Char := ['0', '1', '2', '3', '4', '5', '6', '7', '8', '9']

theorem not_start_of_digit : ∀ c ∈ digits, (c.isAlpha || c = '_') = false := by
  simp [digits]

/-- Names of ASCII letters, digits and underscores. -/
def asciiNames : Unicode where
  isStart c := c.isAlpha || c = '_'
  isContinue c := c.isAlphanum || c = '_'
  decimal c := digits.idxOf? c
  start_letter c hc := by simp [hc]
  continue_letter c hc := by simp [Char.isAlphanum, hc]
  start_decimal c hc := List.idxOf?_eq_none_iff.2 fun hdigit => by
    rw [not_start_of_digit c hdigit] at hc
    cases hc
  start_marks := by simp [marks]
  continue_marks := by simp [marks]

/-- Texts, and dictionaries without attributes of their own. -/
def plainPython : Python String where
  unicode := asciiNames
  quote text := s!"'{text}'"
  getattr _ name :=
    .error (.shown (.other "AttributeError") s!"'dict' object has no attribute '{name}'")
  leafItem _ _ := .error (.shown .typeError "string indices must be integers")
  str r := .ok r
  repr r := .ok r
  ascii r := .ok r
  format r _ :=
    match r with
    | .leaf text => .ok text
    | .dict _ => .ok ""
  ofBool b := if b then "True" else "False"

def signalOk : ResultsMap plainPython.unicode String where
  results := Dict.empty.set "s1" (.dict [("signal_ok", .leaf "True")])
  named := by
    have hnames : asciiNames.isIdentifier "s1".toList = true ∧
        asciiNames.isIdentifier "signal_ok".toList = true := by decide +kernel
    exact ⟨hnames.1, ⟨hnames.2, trivial, trivial⟩, trivial⟩

/-- `results.s1.signal_ok` fails, while `results[s1][signal_ok]` is rendered. -/
theorem dot_lost : ¬ ∀ (py : Python String) (m : ResultsMap py.unicode String),
    Renders py m (fun _ => True) := by
  intro h
  have hleaf : signalOk.root.at? ["s1", "signal_ok"] = some (.leaf "True") := rfl
  obtain ⟨text, -, hrendered⟩ := (renders_iff signalOk).1 (h plainPython signalOk)
    (.leaf .dot ["s1", "signal_ok"] "True" hleaf) trivial
  cases hrendered

end PlanRun
