import BrowserControl.Extension.Screenshot

/-!
# Masks and the styles of the page

`Masking.machine` runs `setSensitiveMask` and `dispose` beside a page that goes on: it changes the
`style` attributes of its elements, takes elements out of the document and puts them back, makes
elements sensitive, and makes new ones. Next to the elements stand the styles that they would have
if there were no masks, which the page changes in the same way.

When masking is switched off, a runtime writes back the styles that it has saved. What the page has
done to the style of a masked element in the meantime is lost with it, and an element that is not in
the document just then keeps its mask for good, since the runtime forgets it
(`not_restored_takenOut`). All other elements always have the style that they would have
(`restored_iff`).

The page changes the style of an element by what it is; a page that copies the style of a masked
element to another is left out.
-/

namespace BrowserControl.Extension

namespace Masking

open Transition Screenshot

/-! ### State -/

/-- A frame, and the styles its elements have without masks. -/
structure State where
  frame : Frame
  /-- The styles that the elements would have without masks. -/
  unmasked : ℕ → Option Style
  /-- Masking is switched on. -/
  masking : Bool

/-- The page changes the style of an element. -/
def restyle (id : ℕ) (change : Option Style → Option Style) (e : Element) : Element :=
  if e.id = id then { e with style := change e.style } else e

/-- The page changes an element, but not its style. -/
def modify (id : ℕ) (sensitive isConnected : Bool) (e : Element) : Element :=
  if e.id = id then { e with sensitive, isConnected } else e

/-- The calls of the runtime, and what the page does. -/
inductive Event where
  /-- `setSensitiveMask(true)` -/
  | enable
  /-- `setSensitiveMask(false)` -/
  | disable
  /-- `dispose()`, after which the frame may get another runtime. -/
  | dispose
  | restyle (id : ℕ) (change : Option Style → Option Style)
  | modify (id : ℕ) (sensitive isConnected : Bool)
  | insert (e : Element)

namespace State

variable (s : State)

/-- `setSensitiveMask`. -/
def setSensitiveMask (enabled : Bool) : State :=
  { s with frame := s.frame.setSensitiveMask enabled, masking := enabled }

/-- The elements of the page change. -/
def mapElements (f : Element → Element) : State :=
  { s with frame := { s.frame with elements := s.frame.elements.map f } }

/-- One step of the frame. -/
def next : Event → State
  | .enable => s.setSensitiveMask true
  | .disable => s.setSensitiveMask false
  | .dispose => s.setSensitiveMask false
  | .restyle id change =>
    { s.mapElements (Masking.restyle id change) with
      unmasked := Function.update s.unmasked id (change (s.unmasked id)) }
  | .modify id sensitive isConnected => s.mapElements (Masking.modify id sensitive isConnected)
  | .insert e =>
    { s with
      frame := { s.frame with elements := s.frame.elements ++ [e] }
      unmasked := Function.update s.unmasked e.id e.style }

end State

/-- A new element is none of those that there are. -/
def enabled (s : State) : Event → Prop
  | .insert e => ∀ e' ∈ s.frame.elements, e'.id ≠ e.id
  | _ => True

instance (s : State) : ∀ e, Decidable (enabled s e)
  | .insert e => inferInstanceAs (Decidable (∀ e' ∈ s.frame.elements, e'.id ≠ e.id))
  | .enable | .disable | .dispose | .restyle .. | .modify .. => isTrue trivial

/-- A frame with a runtime. -/
def machine : Machine State Event where
  init := ⟨⟨[], []⟩, fun _ => none, false⟩
  enabled := enabled
  next := State.next

instance (s : State) (e : Event) : Decidable (machine.enabled s e) :=
  inferInstanceAs (Decidable (enabled s e))

/-- **The page is as it would be without masks** while masking is switched off. -/
def Restored (s : State) : Prop :=
  s.masking = false → ∀ e ∈ s.frame.elements, e.style = s.unmasked e.id
deriving Decidable

/-- An element that the runtime has masked would have the saved style if it is in the document, and
the one that it has if it is not. -/
def Undisturbed (s : State) (e : Element) : Prop :=
  ∀ previous ∈ s.frame.maskedStyles.lookup e.id,
    (if e.isConnected then previous else e.style) = s.unmasked e.id
deriving Decidable

/-- Masking is switched off only while all masked elements are undisturbed. -/
def Timely (s : State) : Event → Prop
  | .disable | .dispose => ∀ e ∈ s.frame.elements, Undisturbed s e
  | _ => True

instance (s : State) : ∀ e, Decidable (Timely s e)
  | .disable | .dispose => inferInstanceAs (Decidable (∀ e ∈ s.frame.elements, Undisturbed s e))
  | .enable | .restyle .. | .modify .. | .insert _ => isTrue trivial

/-! ### The invariant -/

/-- What the runtime remembers is what the page would show. -/
structure Inv (s : State) : Prop where
  nodup : (s.frame.elements.map (·.id)).Nodup
  /-- The runtime knows no element that the page does not have. -/
  known : ∀ id, (∀ e ∈ s.frame.elements, e.id ≠ id) → s.frame.maskedStyles.lookup id = none
  off : s.masking = false → s.frame.maskedStyles = []
  /-- The runtime has not touched the other elements. -/
  untouched : ∀ e ∈ s.frame.elements, s.frame.maskedStyles.lookup e.id = none →
    e.style = s.unmasked e.id

theorem Inv.init : Inv machine.init where
  nodup := .nil
  known _ _ := rfl
  off _ := rfl
  untouched := List.forall_mem_nil _

/-- Without masking the page shows its own styles. -/
theorem Inv.restored {s : State} (hI : Inv s) : Restored s := by
  intro h_off e he
  refine hI.untouched e he ?_
  rw [hI.off h_off, List.lookup_nil]

variable {s : State}

/-- A change of elements that leaves their identifiers. -/
theorem Inv.mapElements (hI : Inv s) {f : Element → Element} (hf : ∀ e, (f e).id = e.id)
    {unmasked : ℕ → Option Style}
    (h : ∀ e ∈ s.frame.elements, e.style = s.unmasked e.id → (f e).style = unmasked e.id) :
    Inv { s.mapElements f with unmasked } where
  nodup := by
    -- The map keeps the identities.
    have h_ids : (s.frame.elements.map f).map (·.id) = s.frame.elements.map (·.id) := by
      rw [List.map_map]
      exact List.map_congr_left fun e _ => hf e
    exact h_ids ▸ hI.nodup
  known id h_new := by
    refine hI.known id fun e he => ?_
    rw [← hf e]
    exact h_new (f e) (List.mem_map_of_mem he)
  off := hI.off
  untouched := by
    intro e' he' h_lookup
    obtain ⟨e, he, rfl⟩ := List.mem_map.mp he'
    rw [hf] at h_lookup ⊢
    exact h e he (hI.untouched e he h_lookup)

/-- What masking does to an element, and what it saves of it. -/
theorem lookup_enable {f : Frame} (h_masks : f.maskedStyles = [])
    (h_ids : (f.elements.map (·.id)).Nodup) {e : Element} (he : e ∈ f.elements) :
    (f.setSensitiveMask true).maskedStyles.lookup e.id =
      if e.present && e.html then some e.style else none := by
  rw [setSensitiveMask_true, if_neg (not_not.mpr h_masks)]
  exact lookup_styles h_ids he

/-- Masking remembers the styles that it replaces. -/
theorem Inv.enable (hI : Inv s) : Inv (s.setSensitiveMask true) := by
  by_cases h_masks : s.frame.maskedStyles = []
  case neg =>
    -- Nothing happens while there are masks.
    have h_frame : s.frame.setSensitiveMask true = s.frame := by
      rw [setSensitiveMask_true, if_pos h_masks]
    have h_state : s.setSensitiveMask true = { s with masking := true } := by
      rw [State.setSensitiveMask, h_frame]
    rw [h_state]
    exact ⟨hI.nodup, hI.known, Bool.noConfusion, hI.untouched⟩
  case pos =>
    -- the masks: one entry for each sensitive element, with the style that it had
    have h_ids := ids_setSensitiveMask s.frame true
    have h_elements : (s.frame.setSensitiveMask true).elements =
        s.frame.elements.map fun e => if e.present && e.html then e.mask else e := by
      rw [setSensitiveMask_true, if_neg (not_not.mpr h_masks)]
    have h_styles : (s.frame.setSensitiveMask true).maskedStyles =
        (s.frame.elements.filter fun e => e.present && e.html).map fun e => (e.id, e.style) := by
      rw [setSensitiveMask_true, if_neg (not_not.mpr h_masks)]
    refine ⟨h_ids ▸ hI.nodup, ?_, Bool.noConfusion, ?_⟩
    -- an entry of the masks is of an element of the page
    · intro id h_new
      show (s.frame.setSensitiveMask true).maskedStyles.lookup id = none
      rw [h_styles, List.lookup_eq_none_iff]
      intro entry h_entry
      obtain ⟨e, he, rfl⟩ := List.mem_map.mp h_entry
      have h_mem : e.id ∈ (s.frame.setSensitiveMask true).elements.map (·.id) := by
        rw [h_ids]
        exact List.mem_map_of_mem (List.mem_of_mem_filter he)
      obtain ⟨e', he', h_id⟩ := List.mem_map.mp h_mem
      refine bne_iff_ne.mpr fun h => h_new e' he' ?_
      rw [h_id]
      exact h.symm
    -- an element without an entry is as it was before
    · intro e' he' h_lookup
      change e' ∈ (s.frame.setSensitiveMask true).elements at he'
      change (s.frame.setSensitiveMask true).maskedStyles.lookup e'.id = none at h_lookup
      rw [h_elements] at he'
      obtain ⟨e, he, rfl⟩ := List.mem_map.mp he'
      have h_saved := lookup_enable h_masks hI.nodup he
      by_cases h_present : (e.present && e.html) = true
      · rw [if_pos h_present] at h_lookup h_saved
        rw [id_mask, h_saved] at h_lookup
        contradiction
      · rw [if_neg h_present]
        refine hI.untouched e he ?_
        rw [h_masks, List.lookup_nil]

/-- The style of an element after masking is switched off. -/
theorem style_restore {f : Frame} {e : Element} {previous : Option Style}
    (h : f.maskedStyles.lookup e.id = some previous) :
    (f.restore e).style = if e.isConnected then previous else e.style := by
  rw [Frame.restore, h]
  dsimp only
  split <;> rfl

/-- Elements that the runtime does not know stay as they are. -/
theorem restore_of_unknown {f : Frame} {e : Element} (h : f.maskedStyles.lookup e.id = none) :
    f.restore e = e := by
  rw [Frame.restore, h]

/-- An element gets its own style back just where nobody has changed it under the mask. -/
theorem Inv.style_restore_iff (hI : Inv s) {e : Element} (he : e ∈ s.frame.elements) :
    (s.frame.restore e).style = s.unmasked e.id ↔ Undisturbed s e := by
  unfold Undisturbed
  cases h_lookup : s.frame.maskedStyles.lookup e.id with
  | none =>
    rw [restore_of_unknown h_lookup]
    exact iff_of_true (hI.untouched e he h_lookup) (by simp)
  | some previous =>
    rw [style_restore h_lookup]
    simp

/-- Where that is so for all elements, the page is as it would be. -/
theorem Inv.disable (hI : Inv s) (h : ∀ e ∈ s.frame.elements, Undisturbed s e) :
    Inv (s.setSensitiveMask false) := by
  refine ⟨(ids_setSensitiveMask s.frame false) ▸ hI.nodup, fun _ _ => rfl, fun _ => rfl, ?_⟩
  intro e' he' _
  obtain ⟨e, he, rfl⟩ := List.mem_map.mp he'
  rw [id_restore]
  exact (hI.style_restore_iff he).mpr (h e he)

/-- A new element shows its own style. -/
theorem Inv.insert (hI : Inv s) {e : Element} (h_new : ∀ e' ∈ s.frame.elements, e'.id ≠ e.id) :
    Inv (s.next (.insert e)) where
  nodup := by
    show ((s.frame.elements ++ [e]).map (·.id)).Nodup
    rw [List.map_append]
    refine List.nodup_append.mpr ⟨hI.nodup, List.nodup_singleton _, ?_⟩
    intro id h_mem id' h_mem'
    obtain ⟨e', he', rfl⟩ := List.mem_map.mp h_mem
    rw [List.eq_of_mem_singleton h_mem']
    exact h_new e' he'
  known id h := hI.known id fun e' he' => h e' (List.mem_append_left _ he')
  off := hI.off
  untouched := by
    intro e' he' h_lookup
    show e'.style = Function.update s.unmasked e.id e.style e'.id
    -- An old element, or the new one, whose style is recorded as it comes.
    rcases List.mem_append.mp he' with he' | he'
    · rw [Function.update_of_ne (h_new e' he')]
      exact hI.untouched e' he' h_lookup
    · rw [List.eq_of_mem_singleton he', Function.update_self]

/-- Every timely step keeps the invariant. -/
theorem Inv.step (hI : Inv s) {e : Event} (he : enabled s e) (h : Timely s e) :
    Inv (s.next e) := by
  cases e with
  -- the masks
  | enable => exact hI.enable
  | disable => exact hI.disable h
  | dispose => exact hI.disable h
  -- the page: a style is changed only while its element has no mask
  | restyle id change =>
    refine hI.mapElements (fun e => ?_) fun e _ h_style => ?_
    · unfold restyle
      split <;> rfl
    · unfold restyle
      split
      case isTrue h_id =>
        rw [h_id, Function.update_self, ← h_id]
        exact congrArg change h_style
      case isFalse h_id =>
        rw [Function.update_of_ne h_id]
        exact h_style
  | modify id sensitive isConnected =>
    refine hI.mapElements (fun e => ?_) fun e _ h_style => ?_
    · unfold modify
      split <;> rfl
    · unfold modify
      split
      · exact h_style
      · exact h_style
  | insert e => exact hI.insert he

/-- An element that is disturbed is not as it would be afterwards. -/
theorem Inv.not_restored (hI : Inv s) (h : ¬ ∀ e ∈ s.frame.elements, Undisturbed s e) :
    ¬ Restored (s.setSensitiveMask false) := by
  intro h_restored
  refine h fun e he => (hI.style_restore_iff he).mp ?_
  have h_style := h_restored rfl (s.frame.restore e) (List.mem_map_of_mem he)
  rwa [id_restore] at h_style

/-- **When masking leaves the page as it found it**: in every state that a run comes to with
masking switched off, all elements have the styles that they would have without masks, if and only
if masking was always switched off while the masked elements were undisturbed. -/
theorem restored_iff {es : List Event} (h : machine.Runs machine.init es) :
    (∀ es₁, es₁ <+: es → Restored (machine.exec machine.init es₁)) ↔
      (machine.restrict Timely).Runs machine.init es := by
  refine h.restrict_iff Inv.init (fun s e hI he h_timely => ?_) (fun s hI => ?_) ?_
  · exact hI.step he h_timely
  · exact hI.restored
  · intro s e hI _ h_not
    cases e with
    | disable => exact hI.not_restored h_not
    | dispose => exact hI.not_restored h_not
    | _ => exact absurd trivial h_not

/-- A password is masked and taken out of the document. -/
def detached : List Event :=
  [.insert (password 0), .insert ⟨1, true, false, true, some []⟩, .enable, .modify 0 true false]

/-- The page moves another element, and the password is put back. -/
theorem restored_iff_reattached :
    machine.Runs machine.init detached ∧
      ∀ es₁, es₁ <+: detached ++ [.restyle 1 (fun _ => some [⟨"left", "1px", false⟩]),
        .modify 0 true true, .disable] → Restored (machine.exec machine.init es₁) :=
  ⟨by decide, (restored_iff (by decide)).mpr (by decide)⟩

/-- A password that is taken out of the document until masking is switched off keeps its mask. -/
theorem not_restored_takenOut :
    ¬ ∀ es : List Event, machine.Runs machine.init es →
      Restored (machine.exec machine.init es) := by
  intro h
  have h_restored := h [.insert (password 0), .enable, .modify 0 true false, .disable,
    .modify 0 true true] (by decide)
  exact absurd h_restored (by decide)

end Masking

end BrowserControl.Extension
