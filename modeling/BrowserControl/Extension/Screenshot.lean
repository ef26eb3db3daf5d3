import BrowserControl.Transition.Machine
import Mathlib.Data.Fintype.Basic
import Mathlib.Data.List.Basic

/-!
# Masks and screenshots

`#capture` masks the sensitive elements of a tab before it takes a screenshot and takes the masks
away afterwards. `setSensitiveMask` does this in every frame. A runtime remembers the elements it
has masked with the styles they had, and while it remembers any it masks no more; nothing tells
for whom they are masked.

So of two captures of one tab the one that is ready first unmasks for both, and elements that
have come since the first one masked are not masked for the second
(`not_exposed_overlapping`). Nothing is exposed as long as masks are only taken away from frames in
which no other capture needs them, and a frame that is to be masked has no masks or no element
that lacks one (`exposed_of_apart`).
-/

namespace BrowserControl.Extension

namespace Screenshot

open Transition

/-! ### The runtime of a frame -/

/-- A declaration of a style: property, value and whether it is important. -/
structure Declaration where
  property : String
  value : String
  important : Bool
  deriving DecidableEq

/-- The declarations of a `style` attribute. -/
abbrev Style := List Declaration

/-- `style.setProperty` -/
def Style.setProperty (style : Style) (d : Declaration) : Style :=
  style.filter (·.property ≠ d.property) ++ [d]

/-- What `setSensitiveMask` declares. -/
def maskDeclarations : List Declaration :=
  [⟨"color", "transparent", true⟩, ⟨"caret-color", "transparent", true⟩,
    ⟨"text-shadow", "none", true⟩]

/-- An element that the page has made. -/
structure Element where
  id : ℕ
  /-- It is an `HTMLElement`. -/
  html : Bool
  /-- What `isSensitiveElement` says of it. -/
  sensitive : Bool
  isConnected : Bool
  style : Option Style
  deriving DecidableEq

/-- The mask styles are applied. -/
def Element.Masked (e : Element) : Prop := ∀ d ∈ maskDeclarations, d ∈ e.style.getD []
deriving Decidable

/-- A sensitive element in the document. -/
def Element.present (e : Element) : Bool := e.isConnected && e.sensitive

/-- The declarations of the mask are set on the element. -/
def Element.mask (e : Element) : Element :=
  { e with style := some (maskDeclarations.foldl Style.setProperty (e.style.getD [])) }

/-- The elements of a frame, and what the runtime remembers of their styles. -/
structure Frame where
  elements : List Element
  maskedStyles : List (ℕ × Option Style)
  deriving DecidableEq

/-- The element gets back the style it had. -/
def Frame.restore (f : Frame) (e : Element) : Element :=
  match f.maskedStyles.lookup e.id with
  | some previous => if e.isConnected then { e with style := previous } else e
  | none => e

/-- `setSensitiveMask`: nothing is masked twice. -/
def Frame.setSensitiveMask (f : Frame) : Bool → Frame
  | false => { elements := f.elements.map f.restore, maskedStyles := [] }
  | true =>
    if f.maskedStyles ≠ [] then f
    else
      { elements := f.elements.map fun e => if e.present && e.html then e.mask else e
        maskedStyles := (f.elements.filter fun e => e.present && e.html).map fun e =>
          (e.id, e.style) }

/-! ### Captures -/

/-- What a capture waits for. -/
inductive Capture (φ : Type*) where
  | outside
  /-- `setSensitiveMask(true)`, in the frames that have not answered. -/
  | enabling (todo : List φ)
  /-- `Page.captureScreenshot`, which can be sent more than once. -/
  | capturing
  /-- `setSensitiveMask(false)`, in the frames that have not answered. -/
  | disabling (todo : List φ)
  | settled
  deriving DecidableEq

/-- The screenshot of this capture is not taken yet. -/
def Capture.pending {φ : Type*} : Capture φ → Bool
  | .enabling _ | .capturing => true
  | _ => false

/-- The frames of a tab, the captures that run, and what they have found. -/
structure State (ρ φ : Type*) where
  /-- The frames of the tab that host the runtime. -/
  hosts : List φ
  frames : φ → Frame
  captures : ρ → Capture φ
  /-- The sensitive elements that a capture has found in a frame when it enabled masking there. -/
  found : ρ → φ → List ℕ
  /-- The sensitive elements that were on a screenshot without mask. -/
  exposed : List (φ × ℕ)

variable {ρ φ : Type*} [DecidableEq ρ] [DecidableEq φ]

namespace State

variable (s : State ρ φ)

/-- A frame runs `setSensitiveMask` for a capture. -/
def run (h : ρ) (frame : φ) : State ρ φ :=
  match s.captures h with
  | .enabling todo =>
    { s with
      frames := Function.update s.frames frame ((s.frames frame).setSensitiveMask true)
      captures := Function.update s.captures h (.enabling (todo.erase frame))
      -- A ghost: the elements the handler saw when it masked the frame.
      found := Function.update s.found h (Function.update (s.found h) frame
        (((s.frames frame).elements.filter Element.present).map (·.id))) }
  | .disabling todo =>
    { s with
      frames := Function.update s.frames frame ((s.frames frame).setSensitiveMask false)
      captures := Function.update s.captures h (.disabling (todo.erase frame)) }
  | _ => s

/-- The handler goes on. -/
def setCapture (h : ρ) (capture : Capture φ) : State ρ φ :=
  { s with captures := Function.update s.captures h capture }

/-- The elements that a capture has found and that have no mask. -/
def bare (h : ρ) (frame : φ) : List (φ × ℕ) :=
  (((s.frames frame).elements.filter fun e => e.id ∈ s.found h frame ∧ ¬ e.Masked).map
    fun e => (frame, e.id))

/-- `Page.captureScreenshot` is sent. -/
def shoot (h : ρ) : State ρ φ :=
  { s with exposed := s.exposed ++ s.hosts.flatMap (s.bare h) }

/-- The page changes an element, but not its style. -/
def modify (frame : φ) (id : ℕ) (sensitive isConnected : Bool) : State ρ φ :=
  { s with
    frames := Function.update s.frames frame
      { s.frames frame with
        elements := (s.frames frame).elements.map fun e =>
          if e.id = id then { e with sensitive, isConnected } else e } }

/-- The page makes an element. -/
def insert (frame : φ) (e : Element) : State ρ φ :=
  { s with
    frames := Function.update s.frames frame
      { s.frames frame with elements := (s.frames frame).elements ++ [e] } }

end State

/-! ### Runs -/

/-- The steps of the captures, and what the pages do. -/
inductive Event (ρ φ : Type*) where
  /-- A capture begins to mask. -/
  | enable (h : ρ)
  /-- A frame runs what a capture has asked for. -/
  | run (h : ρ) (frame : φ)
  /-- All frames are masked. -/
  | enabled (h : ρ)
  /-- A frame cannot be masked or unmasked. -/
  | fail (h : ρ)
  | captureScreenshot (h : ρ)
  /-- The debugger has answered, with the screenshot or an error. -/
  | captured (h : ρ)
  /-- All frames are unmasked. -/
  | disabled (h : ρ)
  | insert (frame : φ) (e : Element)
  | modify (frame : φ) (id : ℕ) (sensitive isConnected : Bool)

/-- The frames that the capture waits for. -/
def Capture.todo {φ : Type*} : Capture φ → List φ
  | .enabling todo | .disabling todo => todo
  | _ => []

/-- When a step can happen. -/
def Enabled (s : State ρ φ) : Event ρ φ → Prop
  | .enable h => s.captures h = .outside
  | .run h frame => frame ∈ (s.captures h).todo
  | .enabled h => s.captures h = .enabling []
  | .fail h => (s.captures h).todo ≠ []
  | .captureScreenshot h | .captured h => s.captures h = .capturing
  | .disabled h => s.captures h = .disabling []
  | .insert frame e => ∀ e' ∈ (s.frames frame).elements, e'.id ≠ e.id
  | .modify .. => True

instance decidableEnabled (s : State ρ φ) : ∀ e, Decidable (Enabled s e)
  | .enable h => inferInstanceAs (Decidable (s.captures h = .outside))
  | .run h frame => inferInstanceAs (Decidable (frame ∈ (s.captures h).todo))
  | .enabled h => inferInstanceAs (Decidable (s.captures h = .enabling []))
  | .fail h => inferInstanceAs (Decidable ((s.captures h).todo ≠ []))
  | .captureScreenshot h | .captured h =>
    inferInstanceAs (Decidable (s.captures h = .capturing))
  | .disabled h => inferInstanceAs (Decidable (s.captures h = .disabling []))
  | .insert frame e =>
    inferInstanceAs (Decidable (∀ e' ∈ (s.frames frame).elements, e'.id ≠ e.id))
  | .modify .. => inferInstanceAs (Decidable True)

/-- The captures of one tab. -/
def machine (ρ φ : Type*) [DecidableEq ρ] [DecidableEq φ] (hosts : List φ) :
    Machine (State ρ φ) (Event ρ φ) where
  init := ⟨hosts, fun _ => ⟨[], []⟩, fun _ => .outside, fun _ _ => [], []⟩
  enabled := Enabled
  next
    | s, .enable h => s.setCapture h (.enabling s.hosts)
    | s, .run h frame => s.run h frame
    | s, .enabled h => s.setCapture h .capturing
    | s, .fail h => s.setCapture h .settled
    | s, .captureScreenshot h => s.shoot h
    -- The `finally` block takes the masks off in the hosts of now.
    | s, .captured h => s.setCapture h (.disabling s.hosts)
    | s, .disabled h => s.setCapture h .settled
    | s, .insert frame e => s.insert frame e
    | s, .modify frame id sensitive isConnected => s.modify frame id sensitive isConnected

instance (hosts : List φ) (s : State ρ φ) (e : Event ρ φ) :
    Decidable ((machine ρ φ hosts).enabled s e) := inferInstanceAs (Decidable (Enabled s e))

/-- A frame in which a capture is about to enable masks has no element that it cannot mask, and no
masks if one of them is not masked. One in which it is about to disable them has none that another
capture needs. -/
def State.ApartIn (s : State ρ φ) (frame : φ) : Capture φ → Prop
  | .enabling _ => ∀ e ∈ (s.frames frame).elements, e.present →
    e.html ∧ ((s.frames frame).maskedStyles = [] ∨ e.Masked)
  | .disabling _ => ∀ h, (s.captures h).pending → s.found h frame = []
  | _ => True

/-- Captures leave each other the masks they need. -/
def Apart (s : State ρ φ) : Event ρ φ → Prop
  | .run h frame => s.ApartIn frame (s.captures h)
  | _ => True

instance decidableApartIn [Fintype ρ] (s : State ρ φ) (frame : φ) :
    ∀ capture, Decidable (s.ApartIn frame capture)
  | .enabling _ => inferInstanceAs (Decidable (∀ e ∈ (s.frames frame).elements, e.present →
    e.html ∧ ((s.frames frame).maskedStyles = [] ∨ e.Masked)))
  | .disabling _ =>
    inferInstanceAs (Decidable (∀ h, (s.captures h).pending → s.found h frame = []))
  | .outside | .capturing | .settled => inferInstanceAs (Decidable True)

instance decidableApart [Fintype ρ] (s : State ρ φ) : ∀ e, Decidable (Apart s e)
  | .run h frame => decidableApartIn s frame (s.captures h)
  | .enable _ | .enabled _ | .fail _ | .captureScreenshot _ | .captured _ | .disabled _
  | .insert .. | .modify .. => inferInstanceAs (Decidable True)

/-! ### Masks -/

/-- A declaration that is set is in the style. -/
theorem mem_setProperty (style : Style) (d : Declaration) : d ∈ style.setProperty d :=
  List.mem_append_right _ List.mem_cons_self

theorem mem_setProperty_of_ne {style : Style} {d d' : Declaration} (h : d' ∈ style)
    (h_ne : d'.property ≠ d.property) : d' ∈ style.setProperty d :=
  List.mem_append_left _ (List.mem_filter.mpr ⟨h, decide_eq_true h_ne⟩)

/-- Properties with different names do not displace each other. -/
theorem mem_foldl_setProperty {ds : List Declaration} (h_names : (ds.map (·.property)).Nodup)
    {style : Style} {d : Declaration} (h : d ∈ ds ∨ d ∈ style ∧ d.property ∉ ds.map (·.property)) :
    d ∈ ds.foldl Style.setProperty style := by
  -- A later declaration has another property, so it does not displace this one.
  induction ds generalizing style with
  | nil =>
    rcases h with h | ⟨h_mem, -⟩
    · cases h
    · exact h_mem
  | cons d' ds ih =>
    rw [List.map_cons, List.nodup_cons] at h_names
    refine ih h_names.2 ?_
    rcases h with h | ⟨h_mem, h_not⟩
    · rcases List.mem_cons.mp h with rfl | h
      · exact .inr ⟨mem_setProperty style d, h_names.1⟩
      · exact .inl h
    · rw [List.map_cons, List.mem_cons, not_or] at h_not
      exact .inr ⟨mem_setProperty_of_ne h_mem h_not.1, h_not.2⟩

/-- The mask masks. -/
theorem masked_mask (e : Element) : e.mask.Masked := by
  intro d h_d
  have h_names : (maskDeclarations.map (·.property)).Nodup := by decide
  exact mem_foldl_setProperty h_names (.inl h_d)

@[simp] theorem id_mask (e : Element) : e.mask.id = e.id := rfl

@[simp] theorem id_restore (f : Frame) (e : Element) : (f.restore e).id = e.id := by
  unfold Frame.restore
  split
  · split <;> rfl
  · rfl

/-- Masking is switched on. -/
theorem setSensitiveMask_true (f : Frame) :
    f.setSensitiveMask true =
      if f.maskedStyles ≠ [] then f
      else
        { elements := f.elements.map fun e => if e.present && e.html then e.mask else e
          maskedStyles := (f.elements.filter fun e => e.present && e.html).map fun e =>
            (e.id, e.style) } := rfl

/-- The elements of the frame stay the same. -/
theorem ids_setSensitiveMask (f : Frame) (enabled : Bool) :
    (f.setSensitiveMask enabled).elements.map (·.id) = f.elements.map (·.id) := by
  cases enabled with
  | false => simp [Frame.setSensitiveMask]
  | true =>
    rw [setSensitiveMask_true]
    split
    · rfl
    · rw [List.map_map]
      refine List.map_congr_left fun e _ => ?_
      rw [Function.comp_apply]
      split <;> rfl

/-- Enabling masks leaves an element as it is or masks it. -/
theorem mem_enable {f : Frame} {e' : Element} (h : e' ∈ (f.setSensitiveMask true).elements) :
    ∃ e ∈ f.elements, e'.id = e.id ∧ (e' = e ∨ e'.Masked) ∧
      (f.maskedStyles = [] → e.present → e.html → e'.Masked) := by
  rw [setSensitiveMask_true] at h
  split at h
  case isTrue h_masks => exact ⟨e', h, rfl, .inl rfl, fun h_nil => absurd h_nil h_masks⟩
  case isFalse =>
    -- Masks are off: each element present is masked or was not one to mask.
    obtain ⟨e, h_e, rfl⟩ := List.mem_map.mp h
    refine ⟨e, h_e, ?_, ?_, ?_⟩
    · split <;> rfl
    · split
      · exact .inr (masked_mask e)
      · exact .inl rfl
    · intro _ h_present h_html
      rw [if_pos (by rw [h_present, h_html]; rfl)]
      exact masked_mask e

/-- What a runtime remembers of an element. -/
theorem lookup_styles {p : Element → Bool} {l : List Element} (h_ids : (l.map (·.id)).Nodup)
    {e : Element} (h : e ∈ l) :
    ((l.filter p).map fun e => (e.id, e.style)).lookup e.id =
      if p e then some e.style else none := by
  induction l with
  | nil => cases h
  | cons x l ih =>
    rw [List.map_cons, List.nodup_cons] at h_ids
    rcases List.mem_cons.mp h with rfl | h
    · rw [List.filter_cons]
      split
      · rw [List.map_cons, List.lookup_cons, beq_self_eq_true]
      · -- No other element has the identifier.
        rw [List.lookup_eq_none_iff]
        intro entry h_entry
        obtain ⟨y, h_y, rfl⟩ := List.mem_map.mp h_entry
        refine bne_iff_ne.mpr fun h_id => h_ids.1 ?_
        rw [h_id]
        exact List.mem_map_of_mem (List.mem_of_mem_filter h_y)
    · have h_ne : e.id ≠ x.id := by
        intro h_id
        rw [← h_id] at h_ids
        exact h_ids.1 (List.mem_map_of_mem h)
      rw [List.filter_cons]
      split
      · rw [List.map_cons, List.lookup_cons, beq_false_of_ne h_ne]
        exact ih h_ids.2 h
      · exact ih h_ids.2 h

/-- A runtime without masks takes away what it puts on: all elements have their styles again. -/
theorem disable_enable {f : Frame} (h_masks : f.maskedStyles = [])
    (h_ids : (f.elements.map (·.id)).Nodup) :
    (f.setSensitiveMask true).setSensitiveMask false = f := by
  rw [setSensitiveMask_true, if_neg (not_not.mpr h_masks)]
  -- the element that has a mask gets back the style that was kept for it
  have h_elements : (f.elements.map fun e => if e.present && e.html then e.mask else e).map
      (Frame.restore
        { elements := f.elements.map fun e => if e.present && e.html then e.mask else e
          maskedStyles := (f.elements.filter fun e => e.present && e.html).map fun e =>
            (e.id, e.style) }) = f.elements := by
    rw [List.map_map]
    conv_rhs => rw [← List.map_id f.elements]
    refine List.map_congr_left fun e h_e => ?_
    have h_lookup := lookup_styles (p := fun e => e.present && e.html) h_ids h_e
    rw [Function.comp_apply, Frame.restore]
    by_cases h_p : (e.present && e.html) = true
    · have h_connected : e.isConnected = true := by
        simp only [Element.present, Bool.and_eq_true] at h_p
        exact h_p.1.1
      have h_style : ((f.elements.filter fun e => e.present && e.html).map fun e =>
          (e.id, e.style)).lookup e.mask.id = some e.style := by
        rw [id_mask, h_lookup, if_pos h_p]
      rw [if_pos h_p]
      dsimp only
      rw [h_style]
      exact if_pos h_connected
    · rw [if_neg h_p]
      dsimp only
      rw [h_lookup, if_neg h_p]
      rfl
  rw [Frame.setSensitiveMask, h_elements, ← h_masks]

/-! ### The invariant -/

/-- What a capture that masks has reached in the frames. -/
structure Inv (s : State ρ φ) : Prop where
  ids : ∀ frame, ((s.frames frame).elements.map (·.id)).Nodup
  known : ∀ h frame, ∀ id ∈ s.found h frame, id ∈ (s.frames frame).elements.map (·.id)
  outside : ∀ h, s.captures h = .outside → ∀ frame, s.found h frame = []
  /-- What a capture has found stays masked until the screenshot is taken. -/
  masked : ∀ h, (s.captures h).pending → ∀ frame, ∀ e ∈ (s.frames frame).elements,
    e.id ∈ s.found h frame → e.Masked
  exposed : s.exposed = []

theorem Inv.init (hosts : List φ) : Inv (machine ρ φ hosts).init := by
  refine ⟨fun _ => List.nodup_nil, ?_, fun _ _ _ => rfl, ?_, rfl⟩
  · intro h frame id h_id
    cases h_id
  · intro h h_pending
    contradiction

omit [DecidableEq φ] in
/-- A capture goes on, and if its screenshot is still to come it was so before or it has found
nothing yet. -/
theorem Inv.setCapture {s : State ρ φ} (h_inv : Inv s) {h : ρ} {capture : Capture φ}
    (h_outside : capture ≠ .outside)
    (h_pending : capture.pending → (s.captures h).pending ∨ s.captures h = .outside) :
    Inv (s.setCapture h capture) := by
  refine ⟨h_inv.ids, h_inv.known, ?_, ?_, h_inv.exposed⟩
  · intro h' h_capture
    by_cases h_h : h' = h
    · subst h_h
      exact absurd (by simpa [State.setCapture] using h_capture) h_outside
    · exact h_inv.outside h' (by simpa [State.setCapture, h_h] using h_capture)
  -- what was masked by a capture that goes on is so still
  · intro h' h_capture frame e h_e h_id
    by_cases h_h : h' = h
    · subst h_h
      rcases h_pending (by simpa [State.setCapture] using h_capture) with h_old | h_old
      · exact h_inv.masked h' h_old frame e h_e h_id
      · have h_nil : s.found h' frame = [] := h_inv.outside h' h_old frame
        have h_mem : e.id ∈ s.found h' frame := h_id
        rw [h_nil] at h_mem
        cases h_mem
    · exact h_inv.masked h' (by simpa [State.setCapture, h_h] using h_capture) frame e h_e h_id

omit [DecidableEq ρ] in
/-- The elements of one frame are changed, and those that a pending capture has found there are
masked. -/
theorem Inv.update {s s' : State ρ φ} (h_inv : Inv s) {frame : φ} {f : Frame}
    (h_frames : s'.frames = Function.update s.frames frame f) (h_found : s'.found = s.found)
    (h_outside : ∀ h, s'.captures h = .outside → s.captures h = .outside)
    (h_pending : ∀ h, (s'.captures h).pending → (s.captures h).pending)
    (h_exposed : s'.exposed = s.exposed) (h_ids : (f.elements.map (·.id)).Nodup)
    (h_known : ∀ id ∈ (s.frames frame).elements.map (·.id), id ∈ f.elements.map (·.id))
    (h_masked : ∀ h, (s'.captures h).pending → ∀ e ∈ f.elements,
      e.id ∈ s.found h frame → e.Masked) : Inv s' := by
  have h_same : s'.frames frame = f := by rw [h_frames, Function.update_self]
  have h_other : ∀ frame', frame' ≠ frame → s'.frames frame' = s.frames frame' := by
    intro frame' h_ne
    rw [h_frames, Function.update_of_ne h_ne]
  refine ⟨?_, ?_, ?_, ?_, h_exposed.trans h_inv.exposed⟩
  · intro frame'
    by_cases h_frame : frame' = frame
    · rw [h_frame, h_same]
      exact h_ids
    · rw [h_other frame' h_frame]
      exact h_inv.ids frame'
  -- who was masked by a capture is so still
  · intro h frame' id h_id
    rw [h_found] at h_id
    by_cases h_frame : frame' = frame
    · subst h_frame
      rw [h_same]
      exact h_known id (h_inv.known h frame' id h_id)
    · rw [h_other frame' h_frame]
      exact h_inv.known h frame' id h_id
  · intro h h_capture
    rw [h_found]
    exact h_inv.outside h (h_outside h h_capture)
  · intro h h_capture frame' e h_e h_id
    rw [h_found] at h_id
    by_cases h_frame : frame' = frame
    · subst h_frame
      rw [h_same] at h_e
      exact h_masked h h_capture e h_e h_id
    · rw [h_other frame' h_frame] at h_e
      exact h_inv.masked h (h_pending h h_capture) frame' e h_e h_id

omit [DecidableEq φ] in
/-- A capture that was not begun before is another one. -/
theorem outside_of_update {captures : ρ → Capture φ} {h h' : ρ} {capture : Capture φ}
    (h_ne : capture ≠ .outside) (h_outside : Function.update captures h capture h' = .outside) :
    h' ≠ h ∧ captures h' = .outside := by
  have h_h : h' ≠ h := by
    rintro rfl
    rw [Function.update_self] at h_outside
    exact h_ne h_outside
  exact ⟨h_h, by rwa [Function.update_of_ne h_h] at h_outside⟩

/-- Masks that are taken away are not needed. -/
theorem Inv.disable {s : State ρ φ} (h_inv : Inv s) {h : ρ} {frame : φ} {todo : List φ}
    (h_capture : s.captures h = .disabling todo) (h_apart : Apart s (.run h frame)) :
    Inv (s.run h frame) := by
  rw [Apart, h_capture] at h_apart
  rw [State.run, h_capture]
  dsimp only
  have h_pending : ∀ h', (Function.update s.captures h (.disabling (todo.erase frame)) h').pending →
      (s.captures h').pending := by
    intro h' h_pending
    by_cases h_h : h' = h
    · rw [h_h, Function.update_self] at h_pending
      contradiction
    · rwa [Function.update_of_ne h_h] at h_pending
  have h_ids := ids_setSensitiveMask (s.frames frame) false
  -- the masks of the frame are taken off
  refine h_inv.update rfl rfl ?_ h_pending rfl ?_ ?_ ?_
  · exact fun h' h_outside => (outside_of_update (by intro h_eq; contradiction) h_outside).2
  · rw [h_ids]
    exact h_inv.ids frame
  · rw [h_ids]
    exact fun _ h_id => h_id
  -- by the condition no other capture has found anything in this frame
  · intro h' h_capture' e _ h_id
    rw [h_apart h' (h_pending h' h_capture')] at h_id
    cases h_id

/-- The capture for which masks are put on finds the elements masked, and the others do so still. -/
theorem Inv.enable {s : State ρ φ} (h_inv : Inv s) {h : ρ} {frame : φ} {todo : List φ}
    (h_capture : s.captures h = .enabling todo) (h_apart : Apart s (.run h frame)) :
    Inv (s.run h frame) := by
  rw [Apart, h_capture] at h_apart
  rw [State.run, h_capture]
  dsimp only
  have h_pending : ∀ h', (Function.update s.captures h (.enabling (todo.erase frame)) h').pending →
      (s.captures h').pending := by
    intro h' h_pending
    by_cases h_h : h' = h
    · rw [h_h, h_capture]
      rfl
    · rwa [Function.update_of_ne h_h] at h_pending
  have h_ids := ids_setSensitiveMask (s.frames frame) true
  -- First the masks are put on; what the other captures have found is masked as before.
  have h_masks : Inv { s with
      frames := Function.update s.frames frame ((s.frames frame).setSensitiveMask true)
      captures := Function.update s.captures h (.enabling (todo.erase frame)) } := by
    refine h_inv.update rfl rfl ?_ h_pending rfl ?_ ?_ ?_
    · exact fun h' h_outside => (outside_of_update (by intro h_eq; contradiction) h_outside).2
    · rw [h_ids]
      exact h_inv.ids frame
    · rw [h_ids]
      exact fun _ h_id => h_id
    · intro h' h_capture' e' h_e' h_id
      obtain ⟨e, h_e, h_eq, h_same, -⟩ := mem_enable h_e'
      rcases h_same with rfl | h_masked
      · exact h_inv.masked h' (h_pending h' h_capture') frame e' h_e h_id
      · exact h_masked
  -- Then the capture notes what it has found.
  have h_found : ∀ h' frame', Function.update s.found h (Function.update (s.found h) frame
      (((s.frames frame).elements.filter Element.present).map (·.id))) h' frame' =
        if h' = h ∧ frame' = frame then
          ((s.frames frame).elements.filter Element.present).map (·.id)
        else s.found h' frame' := by
    intro h' frame'
    by_cases h_h : h' = h
    · subst h_h
      rw [Function.update_self]
      by_cases h_frame : frame' = frame
      · subst h_frame
        rw [Function.update_self, if_pos ⟨rfl, rfl⟩]
      · rw [Function.update_of_ne h_frame, if_neg fun h_and => h_frame h_and.2]
    · rw [Function.update_of_ne h_h, if_neg fun h_and => h_h h_and.1]
  -- known, outside and masked, each for this capture and for the others
  refine ⟨h_masks.ids, ?_, ?_, ?_, h_masks.exposed⟩
  · intro h' frame' id h_id
    dsimp only at h_id
    rw [h_found] at h_id
    split at h_id
    case isTrue h_and =>
      obtain ⟨rfl, rfl⟩ := h_and
      dsimp only
      rw [Function.update_self, h_ids]
      exact (List.filter_sublist.map _).subset h_id
    case isFalse => exact h_masks.known h' frame' id h_id
  · intro h' h_outside frame'
    have h_ne : h' ≠ h := (outside_of_update (by intro h_eq; contradiction) h_outside).1
    dsimp only
    rw [h_found, if_neg fun h_and => h_ne h_and.1]
    exact h_masks.outside h' h_outside frame'
  · intro h' h_capture' frame' e' h_e' h_id
    dsimp only at h_id
    rw [h_found] at h_id
    split at h_id
    case isFalse => exact h_masks.masked h' h_capture' frame' e' h_e' h_id
    case isTrue h_and =>
      obtain ⟨rfl, rfl⟩ := h_and
      dsimp only at h_e'
      rw [Function.update_self] at h_e'
      obtain ⟨e, h_e, h_eq, h_same, h_new⟩ := mem_enable h_e'
      -- The element that was found under this identifier is this one.
      have h_present : e.present := by
        obtain ⟨x, h_x, h_x_id⟩ := List.mem_map.mp h_id
        obtain ⟨h_x, h_x_present⟩ := List.mem_filter.mp h_x
        have h_x_eq : x = e :=
          List.inj_on_of_nodup_map (h_inv.ids _) h_x h_e (h_x_id.trans h_eq)
        rw [← h_x_eq]
        exact h_x_present
      obtain ⟨h_html, h_nil | h_masked⟩ := h_apart e h_e h_present
      · exact h_new h_nil h_present h_html
      · rcases h_same with rfl | h_mask
        · exact h_masked
        · exact h_mask

omit [DecidableEq ρ] in
/-- An element changes. -/
theorem Inv.modify {s : State ρ φ} (h_inv : Inv s) (frame : φ) (id : ℕ)
    (sensitive isConnected : Bool) : Inv (s.modify frame id sensitive isConnected) := by
  have h_ids : ((s.frames frame).elements.map fun e =>
      if e.id = id then { e with sensitive, isConnected } else e).map (·.id) =
        (s.frames frame).elements.map (·.id) := by
    rw [List.map_map]
    refine List.map_congr_left fun e _ => ?_
    rw [Function.comp_apply]
    split <;> rfl
  refine h_inv.update rfl rfl (fun _ h_outside => h_outside) (fun _ h_pending => h_pending) rfl
    ?_ ?_ ?_
  · rw [h_ids]
    exact h_inv.ids frame
  · rw [h_ids]
    exact fun _ h_id => h_id
  -- the attributes change, the style does not
  · intro h h_pending e' h_e' h_id
    obtain ⟨e, h_e, rfl⟩ := List.mem_map.mp h_e'
    have h_masked : e.id ∈ s.found h frame → e.Masked := h_inv.masked h h_pending frame e h_e
    by_cases h_e_id : e.id = id
    · rw [if_pos h_e_id] at h_id ⊢
      exact h_masked h_id
    · rw [if_neg h_e_id] at h_id ⊢
      exact h_masked h_id

omit [DecidableEq ρ] in
/-- An element is added. -/
theorem Inv.insert {s : State ρ φ} (h_inv : Inv s) {frame : φ} {e : Element}
    (h_new : ∀ e' ∈ (s.frames frame).elements, e'.id ≠ e.id) : Inv (s.insert frame e) := by
  -- no capture has found the new element
  have h_fresh : e.id ∉ (s.frames frame).elements.map (·.id) := by
    intro h_mem
    obtain ⟨e', h_e', h_id⟩ := List.mem_map.mp h_mem
    exact h_new e' h_e' h_id
  refine h_inv.update rfl rfl (fun _ h_outside => h_outside) (fun _ h_pending => h_pending) rfl
    ?_ ?_ ?_
  · rw [List.map_append, List.map_singleton]
    refine (h_inv.ids frame).append (List.nodup_singleton _) ?_
    intro id h_old h_last
    rw [List.mem_singleton.mp h_last] at h_old
    exact h_fresh h_old
  · intro id h_id
    rw [List.map_append]
    exact List.mem_append_left _ h_id
  · intro h h_pending e' h_e' h_id
    rcases List.mem_append.mp h_e' with h_old | h_last
    · exact h_inv.masked h h_pending frame e' h_old h_id
    · rw [List.mem_singleton.mp h_last] at h_id
      exact absurd (h_inv.known h frame e.id h_id) h_fresh

omit [DecidableEq ρ] [DecidableEq φ] in
/-- A screenshot is taken when what the capture has found is masked. -/
theorem Inv.shoot {s : State ρ φ} (h_inv : Inv s) {h : ρ} (h_capture : s.captures h = .capturing) :
    Inv (s.shoot h) := by
  have h_bare : s.hosts.flatMap (s.bare h) = [] := by
    refine List.flatMap_eq_nil_iff.mpr fun frame _ => ?_
    rw [State.bare, List.map_eq_nil_iff, List.filter_eq_nil_iff]
    intro e h_e h_both
    have h_both := of_decide_eq_true h_both
    exact h_both.2 (h_inv.masked h (by rw [h_capture]; rfl) frame e h_e h_both.1)
  refine ⟨h_inv.ids, h_inv.known, h_inv.outside, h_inv.masked, ?_⟩
  show s.exposed ++ s.hosts.flatMap (s.bare h) = []
  rw [h_bare, List.append_nil]
  exact h_inv.exposed

variable {hosts : List φ}

/-- Every step under the condition. -/
theorem Inv.next {s : State ρ φ} (h_inv : Inv s) {e : Event ρ φ} (h_enabled : Enabled s e)
    (h_apart : Apart s e) : Inv ((machine ρ φ hosts).next s e) := by
  cases e with
  | enable h => exact h_inv.setCapture (by intro h_eq; contradiction) fun _ => .inr h_enabled
  -- a frame is masked or unmasked
  | run h frame =>
    have h_todo : frame ∈ (s.captures h).todo := h_enabled
    show Inv (s.run h frame)
    cases h_capture : s.captures h with
    | enabling todo => exact h_inv.enable h_capture h_apart
    | disabling todo => exact h_inv.disable h_capture h_apart
    | _ =>
      rw [h_capture] at h_todo
      cases h_todo
  | enabled h =>
    have h_capture : s.captures h = .enabling [] := h_enabled
    refine h_inv.setCapture (by intro h_eq; contradiction) fun _ => .inl ?_
    rw [h_capture]
    rfl
  | fail h =>
    exact h_inv.setCapture (by intro h_eq; contradiction) fun h_pending => by contradiction
  -- the picture is taken while everything found is masked
  | captureScreenshot h => exact h_inv.shoot h_enabled
  | captured h =>
    exact h_inv.setCapture (by intro h_eq; contradiction) fun h_pending => by contradiction
  | disabled h =>
    exact h_inv.setCapture (by intro h_eq; contradiction) fun h_pending => by contradiction
  | insert frame e => exact h_inv.insert h_enabled
  | modify frame id sensitive isConnected => exact h_inv.modify frame id sensitive isConnected

/-- **Nothing is exposed** by captures that leave each other the masks they need. -/
theorem exposed_of_apart {es : List (Event ρ φ)}
    (h_run : ((machine ρ φ hosts).restrict Apart).Runs
      ((machine ρ φ hosts).restrict Apart).init es) :
    ((machine ρ φ hosts).exec (machine ρ φ hosts).init es).exposed = [] := by
  have h_inv : Inv ((machine ρ φ hosts).exec (machine ρ φ hosts).init es) := by
    refine Machine.Reachable.induction (M := (machine ρ φ hosts).restrict Apart) (P := Inv)
      (Inv.init hosts) ?_ h_run.reachable
    intro s e _ h_inv h_enabled
    exact @Inv.next ρ φ _ _ hosts s h_inv e h_enabled.1 h_enabled.2
  exact h_inv.exposed

/-- A field for a password. -/
def password (id : ℕ) : Element := ⟨id, true, true, true, none⟩

/-- A capture up to its screenshot, of a tab with one frame. -/
def masked (h : Bool) : List (Event Bool Unit) := [.enable h, .run h (), .enabled h]

/-- The rest of a capture. -/
def unmasked (h : Bool) : List (Event Bool Unit) :=
  [.captureScreenshot h, .captured h, .run h (), .disabled h]

/-- Two captures that overlap: the second begins while the first has its masks, and the first takes
them away when the second has its screenshot. -/
theorem exposed_of_apart_twice :
    ((machine Bool Unit [()]).exec (machine Bool Unit [()]).init
      (.insert () (password 0) :: .insert () (password 1) :: masked false ++ masked true ++
        .captureScreenshot false :: .captureScreenshot true :: .captured false ::
          .captured true :: .run false () :: .disabled false :: .run true () ::
            [.disabled true])).exposed = [] :=
  exposed_of_apart (by decide)

/-- Two captures that overlap: the first one unmasks the field before the second one takes its
screenshot. -/
theorem not_exposed_overlapping :
    ¬ ∀ (hosts : List Unit) (es : List (Event Bool Unit)),
      (machine Bool Unit hosts).Runs (machine Bool Unit hosts).init es →
        ((machine Bool Unit hosts).exec (machine Bool Unit hosts).init es).exposed = [] := by
  intro h
  have h_run : (machine Bool Unit [()]).Runs (machine Bool Unit [()]).init
      (.insert () (password 0) :: masked false ++ masked true ++ unmasked false ++
        unmasked true) := by
    decide
  -- The second capture photographs after the first one took the masks off.
  have h_exposed : ((machine Bool Unit [()]).exec (machine Bool Unit [()]).init
      (.insert () (password 0) :: masked false ++ masked true ++ unmasked false ++
        unmasked true)).exposed = [((), 0)] := by
    decide
  have h_nil := h [()] _ h_run
  rw [h_exposed] at h_nil
  contradiction

end Screenshot

end BrowserControl.Extension
