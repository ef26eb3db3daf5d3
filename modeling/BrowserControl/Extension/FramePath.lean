import BrowserControl.Extension.FrameQuery
import Mathlib.Data.Set.Basic

/-!
# Frame paths

A component of a frame path is a locator for `<iframe>` elements, and the path leads from a frame
to the child frames of the elements that the component matches. Chrome does not say which element a
child frame belongs to, so `#resolveFramePath` compares URLs: it takes the child frame with the URL
that the `src` of a matched element stands for, of which the description has the first 256
characters only, whatever the element is. Where there is no `src` to go by, or the only match leads
nowhere, it takes an only child.

`named` follows the elements themselves; `owner` says which element a frame belongs to. The two
agree on a path and all the paths that it begins with if and only if, at each of its components,
exactly those child frames are taken that belong to a matched element (`resolves_iff`).
-/

namespace BrowserControl.Extension.FrameQuery

open LocatorRuntime

/-! ### The frames that a path names -/

section

variable (P : Chrome) (tab : Tab) (owner : ℕ → ℕ)

/-- The elements of a frame that a component of the path matches. -/
def matched (host : Host) (component : Locator) : List Element :=
  ranked host.document.root (rank P.browser (targetLocator component) host.document.root)

/-- An iframe, whatever the case in which its name is written. -/
def isIframe (e : Element) : Bool := P.browser.toLowerCase e.data.tagName = "iframe"

/-- The frame belongs to an iframe element that the component matches. -/
def Owned (host : Host) (component : Locator) (child : Frame) : Prop :=
  ∃ e ∈ matched P host component, isIframe P e = true ∧ e.id = owner child.frameID

/-- From frames to the child frames that a component names. -/
def follow (parents : Set ℕ) (component : Locator) : Set ℕ :=
  {frameID | ∃ parent ∈ parents, ∃ host, invokeFrame P tab parent = .ok host ∧
    ∃ child ∈ children tab parent, Owned P owner host component child ∧ child.frameID = frameID}

/-- The frames that a path names. -/
def named (path : List Locator) : Set ℕ := path.foldl (follow P tab owner) {0}

/-- The tree of the frames and their elements. -/
structure FrameTree : Prop where
  ids : (tab.frames.map (·.frameID)).Nodup
  /-- Every child frame belongs to an iframe element and has the URL of its `src`. -/
  owned : ∀ {parent host}, invokeFrame P tab parent = .ok host → ∀ child ∈ children tab parent,
    ∃ e ∈ collectElements host.document.root true, e.id = owner child.frameID ∧
      isIframe P e = true ∧ ∃ src, e.getAttribute "src" = some src ∧
        P.newURL src host.url = some child.url
  /-- Siblings have different URLs. -/
  siblings : ∀ parent, ∀ child ∈ children tab parent, ∀ child' ∈ children tab parent,
    child.url = child'.url → child = child'

/-- **A path leads to the frames that it names**, or to an error if there are none. -/
def Resolves (path : List Locator) : Prop :=
  (∃ frameIDs, resolveFramePath P tab path = .ok frameIDs ∧ frameIDs ≠ [] ∧
      {frameID | frameID ∈ frameIDs} = named P tab owner path) ∨
    named P tab owner path = ∅ ∧
      ∃ e, resolveFramePath P tab path = .error e ∧ e.kind = "FRAME_UNAVAILABLE"

/-! ### The frames that are taken -/

/-- The part of the `src` that the description of an element has. -/
def srcOf (e : Element) : String := slice ((e.getAttribute "src").getD "") 256

/-- An element stands for a child frame: by the URL, or without `src` for an only child. -/
def Leads (host : Host) (parent : ℕ) (e : Element) (child : Frame) : Prop :=
  if srcOf e = "" then children tab parent = [child]
  else P.newURL (srcOf e) host.url = some child.url

/-- A child frame is taken because a matched element stands for it, or because it is the only child
and there is only one match. -/
def Picked (host : Host) (parent : ℕ) (component : Locator) (child : Frame) : Prop :=
  (∃ e ∈ matched P host component, Leads P tab host parent e child) ∨
    children tab parent = [child] ∧ (matched P host component).length = 1

/-- Every frame can be asked. -/
def AllHost (parents : Set ℕ) : Prop :=
  ∀ parent ∈ parents, ∃ host, invokeFrame P tab parent = .ok host

/-- A component is followed as it should be: exactly the child frames are taken that belong to a
matched element, or a frame cannot be asked and no frame is named. -/
def Right (parents : Set ℕ) (component : Locator) : Prop :=
  (AllHost P tab parents ∧ ∀ parent ∈ parents, ∀ host, invokeFrame P tab parent = .ok host →
      ∀ child ∈ children tab parent,
        Picked P tab host parent component child ↔ Owned P owner host component child) ∨
    ¬ AllHost P tab parents ∧ follow P tab owner parents component = ∅

end

/-! ### Descriptions -/

/-- An attribute that is described is found in the description. -/
theorem lookup_filterMap {names : List String} {f : String → Option String} {name : String}
    (h : name ∈ names) :
    (names.filterMap fun name => (f name).map fun value => (name, value)).lookup name = f name := by
  induction names with
  | nil => contradiction
  | cons name' names ih =>
    rw [List.filterMap_cons]
    by_cases h_name : name = name'
    · subst h_name
      cases h_f : f name with
      | some value => exact List.lookup_cons_self
      | none =>
        rw [Option.map_none]
        by_cases h_mem : name ∈ names
        · exact (ih h_mem).trans h_f
        · refine List.lookup_eq_none_iff.mpr fun entry h_entry => ?_
          obtain ⟨name', h_name', h_value⟩ := List.mem_filterMap.mp h_entry
          obtain ⟨value, -, rfl⟩ := Option.map_eq_some_iff.mp h_value
          exact bne_iff_ne.mpr fun h_eq => h_mem (h_eq ▸ h_name')
    · have h_mem : name ∈ names := (List.mem_cons.mp h).resolve_left h_name
      cases f name' with
      | some value =>
        rw [Option.map_some]
        dsimp only
        rw [List.lookup_cons, beq_false_of_ne h_name]
        exact ih h_mem
      | none => exact ih h_mem

/-- There is nothing to cut of an attribute that is not there. -/
theorem slice_empty (n : ℕ) : slice "" n = "" := by
  simp [slice]

/-- The description of an element has the `src` that the runtime reads. -/
theorem lookup_src (browser : Browser) (e : Element) (nodeRef : String) :
    ((describe browser e nodeRef).attributes.lookup "src").getD "" = srcOf e := by
  have h_lookup := @lookup_filterMap attributeNames (fun name =>
    (e.getAttribute name).map fun value => slice value (if name = "href" then 512 else 256))
    "src" (by decide)
  simp only [Option.map_map] at h_lookup
  have h_src : (selectedAttributes e).lookup "src" = (e.getAttribute "src").map (slice · 256) :=
    h_lookup
  show ((selectedAttributes e).lookup "src").getD "" = srcOf e
  rw [h_src, srcOf]
  cases e.getAttribute "src" with
  | none => exact (slice_empty 256).symm
  | some src => rfl

/-! ### Sets of frames -/

/-- A frame that is added is among the frames. -/
theorem mem_addFrame {next : List ℕ} {frameID frameID' : ℕ} :
    frameID' ∈ addFrame next frameID ↔ frameID' ∈ next ∨ frameID' = frameID := by
  unfold addFrame
  split
  case isTrue h =>
    constructor
    · exact .inl
    · rintro (h_mem | rfl)
      · exact h_mem
      · exact h
  case isFalse => rw [List.mem_append, List.mem_singleton]

/-- Frames are only added. -/
theorem prefix_addFrame (next : List ℕ) (frameID : ℕ) : next <+: addFrame next frameID := by
  unfold addFrame
  split
  · exact List.prefix_refl _
  · exact List.prefix_append ..

section

variable {P : Chrome} {tab : Tab} {owner : ℕ → ℕ}

/-- A node leads to a child frame if that is its only candidate. -/
def NodeLeads (P : Chrome) (siblings : List Frame) (url : String) (node : NodeDescription)
    (child : Frame) : Prop := candidates P siblings url node = [child]

/-- A description adds the one frame to which it leads. -/
theorem mem_followNode {siblings : List Frame} {url : String} {next : List ℕ}
    {node : NodeDescription} {frameID : ℕ} :
    frameID ∈ followNode P siblings url next node ↔
      frameID ∈ next ∨ ∃ child, NodeLeads P siblings url node child ∧ child.frameID = frameID := by
  unfold followNode NodeLeads
  split
  case h_1 child h_child =>
    rw [mem_addFrame, h_child]
    simp [eq_comm]
  case h_2 h_other =>
    constructor
    · exact .inl
    · rintro (h_mem | ⟨child, h_child, -⟩)
      · exact h_mem
      · exact absurd h_child (h_other child)

/-- A description takes no frame away. -/
theorem prefix_followNode (siblings : List Frame) (url : String) (next : List ℕ)
    (node : NodeDescription) : next <+: followNode P siblings url next node := by
  unfold followNode
  split
  · exact prefix_addFrame ..
  · exact List.prefix_refl _

/-- A frame is reached when one of the descriptions leads to it. -/
theorem mem_foldl_followNode {siblings : List Frame} {url : String} {next : List ℕ}
    {nodes : List NodeDescription} {frameID : ℕ} :
    frameID ∈ nodes.foldl (followNode P siblings url) next ↔
      frameID ∈ next ∨
        ∃ node ∈ nodes, ∃ child, NodeLeads P siblings url node child ∧ child.frameID = frameID := by
  induction nodes generalizing next with
  | nil => simp
  | cons node nodes ih =>
    rw [List.foldl_cons, ih, mem_followNode, List.exists_mem_cons_iff, or_assoc]

/-- Descriptions take no frame away. -/
theorem prefix_foldl_followNode (siblings : List Frame) (url : String) (next : List ℕ)
    (nodes : List NodeDescription) : next <+: nodes.foldl (followNode P siblings url) next := by
  induction nodes generalizing next with
  | nil => exact List.prefix_refl _
  | cons node nodes ih => exact (prefix_followNode siblings url next node).trans (ih _)

/-! ### Candidates -/

/-- A frame has each of its children once. -/
theorem FrameTree.nodup_children (hT : FrameTree P tab owner) (parent : ℕ) :
    (children tab parent).Nodup := (hT.ids.of_map _).filter _

/-- No two siblings have the URL of an element. -/
theorem FrameTree.filter_url_eq_singleton (hT : FrameTree P tab owner) {parent : ℕ} {url : String}
    {child : Frame} (h_child : child ∈ children tab parent) :
    (children tab parent).filter (·.url = url) = [child] ↔ child.url = url := by
  constructor
  · intro h_filter
    have h_mem : child ∈ (children tab parent).filter (·.url = url) := by
      rw [h_filter]
      exact List.mem_cons_self
    exact of_decide_eq_true (List.mem_filter.mp h_mem).2
  · intro h_url
    -- Siblings have distinct addresses.
    have h_nodup := (hT.nodup_children parent).filter (·.url = url)
    refine List.perm_singleton.mp ((List.perm_ext_iff_of_nodup h_nodup (List.nodup_singleton _)).mpr
      fun child' => ?_)
    rw [List.mem_filter, List.mem_singleton, decide_eq_true_eq]
    constructor
    · rintro ⟨h_mem, h_url'⟩
      exact hT.siblings parent child' h_mem child h_child (h_url'.trans h_url.symm)
    · rintro rfl
      exact ⟨h_child, h_url⟩

/-- What the description of an element leads to. -/
theorem FrameTree.nodeLeads_describe (hT : FrameTree P tab owner) {host : Host} {parent : ℕ}
    {e : Element} {nodeRef : String} {child : Frame} :
    NodeLeads P (children tab parent) host.url (describe P.browser e nodeRef) child ↔
      child ∈ children tab parent ∧ Leads P tab host parent e child := by
  unfold NodeLeads candidates Leads
  rw [lookup_src]
  split
  -- an element without a source leads to an only child
  case h_1 h_src =>
    rw [if_pos h_src]
    refine (and_iff_right_of_imp fun h_only => ?_).symm
    rw [h_only]
    exact List.mem_cons_self
  -- with a source, to the child that has its address
  case h_2 h_src =>
    rw [if_neg h_src]
    split
    case h_1 expected h_url =>
      rw [h_url, Option.some_inj]
      constructor
      · intro h_filter
        have h_mem : child ∈ (children tab parent).filter (·.url = expected) := by
          rw [h_filter]
          exact List.mem_cons_self
        have h_child := List.mem_of_mem_filter h_mem
        exact ⟨h_child, ((hT.filter_url_eq_singleton h_child).mp h_filter).symm⟩
      · rintro ⟨h_child, h_eq⟩
        exact (hT.filter_url_eq_singleton h_child).mpr h_eq.symm
    case h_2 h_url =>
      rw [h_url]
      simp

/-! ### One parent -/

/-- What a runtime answers are the descriptions of the matched elements. -/
theorem exists_mem_query {host : Host} {component : Locator} {Q : NodeDescription → Prop}
    (hQ : ∀ e nodeRef nodeRef',
      Q (describe P.browser e nodeRef) ↔ Q (describe P.browser e nodeRef')) :
    (∃ node ∈ host.query P (targetLocator component) none, Q node) ↔
      ∃ e ∈ matched P host component, Q (describe P.browser e "") := by
  have h_answers := @answers P.browser (targetLocator component) _ host.document.distinct
  constructor
  · rintro ⟨node, h_node, h_Q⟩
    obtain ⟨index, h_index, rfl⟩ := List.mem_mapIdx.mp h_node
    exact ⟨_, (h_answers.mem _).mp (List.getElem_mem h_index), (hQ _ _ _).mp h_Q⟩
  · rintro ⟨e, he, h_Q⟩
    obtain ⟨index, h_index, rfl⟩ := List.getElem_of_mem ((h_answers.mem e).mpr he)
    exact ⟨_, List.mem_mapIdx.mpr ⟨index, h_index, rfl⟩, (hQ _ _ _).mp h_Q⟩

/-- As many descriptions as elements are found. -/
theorem length_query_eq (host : Host) (component : Locator) :
    (host.query P (targetLocator component) none).length = (matched P host component).length := by
  have h_answers := @answers P.browser (targetLocator component) _ host.document.distinct
  rw [Host.query, List.length_mapIdx]
  exact (h_answers.perm host.document.distinct).length_eq

/-- What the nodes of one parent lead to. -/
theorem FrameTree.mem_followed (hT : FrameTree P tab owner) (parent : ℕ) (host : Host)
    (component : Locator) (next : List ℕ) (frameID : ℕ) :
    frameID ∈ (host.query P (targetLocator component) none).foldl
        (followNode P (children tab parent) host.url) next ↔
      frameID ∈ next ∨ ∃ child ∈ children tab parent,
        (∃ e ∈ matched P host component, Leads P tab host parent e child) ∧
          child.frameID = frameID := by
  rw [mem_foldl_followNode, exists_mem_query]
  · simp only [hT.nodeLeads_describe]
    -- Only the order of the two existential quantifiers differs.
    refine or_congr_right ⟨?_, ?_⟩
    · rintro ⟨e, he, child, ⟨h_child, h_leads⟩, h_id⟩
      exact ⟨child, h_child, ⟨e, he, h_leads⟩, h_id⟩
    · rintro ⟨child, h_child, ⟨e, he, h_leads⟩, h_id⟩
      exact ⟨e, he, child, ⟨h_child, h_leads⟩, h_id⟩
  · intro e nodeRef nodeRef'
    simp only [hT.nodeLeads_describe]

/-- Nodes that lead nowhere add no frame. -/
theorem foldl_followNode_eq_self {siblings : List Frame} {url : String}
    {nodes : List NodeDescription}
    (h : ¬ ∃ node ∈ nodes, ∃ child, NodeLeads P siblings url node child) (next : List ℕ) :
    nodes.foldl (followNode P siblings url) next = next := by
  induction nodes with
  | nil => rfl
  | cons node nodes ih =>
    rw [List.exists_mem_cons_iff, not_or] at h
    have h_node : followNode P siblings url next node = next := by
      unfold followNode
      split
      case h_1 child h_child => exact absurd ⟨child, h_child⟩ h.1
      case h_2 => rfl
    rw [List.foldl_cons, h_node]
    exact ih h.2

theorem FrameTree.followed_eq_self (hT : FrameTree P tab owner) {parent : ℕ} {host : Host}
    {component : Locator}
    (h : ¬ ∃ child ∈ children tab parent, ∃ e ∈ matched P host component,
      Leads P tab host parent e child) (next : List ℕ) :
    (host.query P (targetLocator component) none).foldl
      (followNode P (children tab parent) host.url) next = next := by
  refine foldl_followNode_eq_self (fun h_leads => h ?_) next
  rw [exists_mem_query] at h_leads
  · obtain ⟨e, he, child, h_child⟩ := h_leads
    obtain ⟨h_child, h_leads⟩ := hT.nodeLeads_describe.mp h_child
    exact ⟨child, h_child, e, he, h_leads⟩
  · intro e nodeRef nodeRef'
    simp only [hT.nodeLeads_describe]

/-- **What a component adds for one parent**: the child frames that are taken. -/
theorem FrameTree.followParent_spec (hT : FrameTree P tab owner) {parent : ℕ} {host : Host}
    (h_host : invokeFrame P tab parent = .ok host) (component : Locator) (next : List ℕ) :
    ∃ next', followParent P tab component next parent = .ok next' ∧
      ∀ frameID, frameID ∈ next' ↔ frameID ∈ next ∨
        ∃ child ∈ children tab parent, Picked P tab host parent component child ∧
          child.frameID = frameID := by
  have h_length := length_query_eq (P := P) host component
  -- what the loop over the matched nodes adds
  have h_followed := hT.mem_followed parent host component next
  have h_prefix := prefix_foldl_followNode (P := P) (children tab parent) host.url next
    (host.query P (targetLocator component) none)
  have h_unchanged := fun h =>
    @FrameTree.followed_eq_self P tab owner hT parent host component h next
  unfold followParent
  rw [h_host]
  refine ⟨_, rfl, fun frameID => ?_⟩
  generalize host.query P (targetLocator component) none = nodes
    at h_length h_followed h_prefix h_unchanged ⊢
  generalize nodes.foldl (followNode P (children tab parent) host.url) next = followed
    at h_followed h_prefix h_unchanged ⊢
  split
  case h_1 node child h_only =>
    -- There is one match and one child, which is taken in any case.
    have h_picked : Picked P tab host parent component child := .inr ⟨h_only, h_length.symm⟩
    have h_child : child ∈ children tab parent := h_only ▸ List.mem_cons_self
    have h_right : (∃ child ∈ children tab parent, Picked P tab host parent component child ∧
        child.frameID = frameID) ↔ frameID = child.frameID := by
      constructor
      · rintro ⟨child', h_child', -, rfl⟩
        rw [h_only] at h_child'
        rw [List.eq_of_mem_singleton h_child']
      · rintro rfl
        exact ⟨child, h_child, h_picked, rfl⟩
    rw [h_right]
    split
    case isTrue h_same =>
      rw [mem_addFrame, h_prefix.eq_of_length h_same.symm]
    case isFalse h_more =>
      rw [h_followed]
      refine or_congr_right ⟨?_, ?_⟩
      · rintro ⟨child', h_child', -, rfl⟩
        rw [h_only] at h_child'
        rw [List.eq_of_mem_singleton h_child']
      · rintro rfl
        -- A node has led to the only child, since a frame was added.
        by_contra h_none
        refine h_more (congrArg List.length (h_unchanged ?_))
        rintro ⟨child', h_child', h_leads⟩
        have h_eq : child' = child := by
          rw [h_only] at h_child'
          exact List.eq_of_mem_singleton h_child'
        exact h_none ⟨child, h_child, h_eq ▸ h_leads, rfl⟩
  case h_2 h_other =>
    rw [h_followed]
    refine or_congr_right (exists_congr fun child => and_congr_right fun h_child => ?_)
    refine and_congr_left fun _ => ⟨.inl, ?_⟩
    rintro (h_leads | ⟨h_only, h_one⟩)
    · exact h_leads
    · rw [← h_length] at h_one
      obtain ⟨node, rfl⟩ := List.length_eq_one_iff.mp h_one
      exact absurd h_only (h_other node child rfl)

/-! ### One component -/

/-- The child frames that a component takes. -/
def taken (P : Chrome) (tab : Tab) (parents : Set ℕ) (component : Locator) : Set ℕ :=
  {frameID | ∃ parent ∈ parents, ∃ host, invokeFrame P tab parent = .ok host ∧
    ∃ child ∈ children tab parent, Picked P tab host parent component child ∧
      child.frameID = frameID}

/-- If all parents can be asked, the frames that are taken are collected. -/
theorem FrameTree.foldlM_followParent (hT : FrameTree P tab owner) (component : Locator)
    {parents : List ℕ} (h : AllHost P tab {parent | parent ∈ parents}) (next : List ℕ) :
    ∃ next', parents.foldlM (followParent P tab component) next = .ok next' ∧
      ∀ frameID, frameID ∈ next' ↔
        frameID ∈ next ∨ frameID ∈ taken P tab {parent | parent ∈ parents} component := by
  induction parents generalizing next with
  | nil =>
    refine ⟨next, rfl, fun frameID => (or_iff_left ?_).symm⟩
    rintro ⟨parent, h_parent, -⟩
    contradiction
  -- the first parent adds its frames, and then the others
  | cons parent parents ih =>
    obtain ⟨host, h_host⟩ := h parent List.mem_cons_self
    obtain ⟨next₁, h_next₁, h_mem₁⟩ := hT.followParent_spec h_host component next
    obtain ⟨next₂, h_next₂, h_mem₂⟩ := ih (fun p hp => h p (List.mem_cons_of_mem _ hp)) next₁
    refine ⟨next₂, ?_, fun frameID => ?_⟩
    · rw [List.foldlM_cons, h_next₁]
      exact h_next₂
    · rw [h_mem₂, h_mem₁, or_assoc]
      refine or_congr_right ⟨?_, ?_⟩
      · rintro (h_child | ⟨p, hp, h_taken⟩)
        · exact ⟨parent, List.mem_cons_self, host, h_host, h_child⟩
        · exact ⟨p, List.mem_cons_of_mem _ hp, h_taken⟩
      · rintro ⟨p, hp, host', h_host', h_child⟩
        rcases List.mem_cons.mp hp with rfl | hp
        · rw [h_host] at h_host'
          exact .inl (Except.ok.inj h_host' ▸ h_child)
        · exact .inr ⟨p, hp, host', h_host', h_child⟩

/-- A parent that cannot be asked fails the path. -/
theorem FrameTree.foldlM_followParent_error (hT : FrameTree P tab owner) (component : Locator)
    {parents : List ℕ} (h : ¬ AllHost P tab {parent | parent ∈ parents}) (next : List ℕ) :
    ∃ e, parents.foldlM (followParent P tab component) next = .error e := by
  induction parents generalizing next with
  | nil => exact absurd (fun p hp => by contradiction) h
  | cons parent parents ih =>
    rw [List.foldlM_cons]
    -- The first parent that fails ends the fold.
    cases h_host : invokeFrame P tab parent with
    | error e =>
      refine ⟨e, ?_⟩
      rw [followParent, h_host]
      rfl
    | ok host =>
      obtain ⟨next₁, h_next₁, -⟩ := hT.followParent_spec h_host component next
      rw [h_next₁]
      refine ih (fun h_all => h fun p hp => ?_) next₁
      rcases List.mem_cons.mp hp with rfl | hp
      · exact ⟨host, h_host⟩
      · exact h_all p hp

/-- A child frame has one parent only. -/
theorem FrameTree.parent_unique (hT : FrameTree P tab owner) {parent parent' : ℕ}
    {child child' : Frame} (h : child ∈ children tab parent) (h' : child' ∈ children tab parent')
    (h_id : child.frameID = child'.frameID) : parent = parent' ∧ child = child' := by
  obtain ⟨h_mem, h_parent⟩ := List.mem_filter.mp h
  obtain ⟨h_mem', h_parent'⟩ := List.mem_filter.mp h'
  obtain rfl := List.inj_on_of_nodup_map hT.ids h_mem h_mem' h_id
  refine ⟨?_, rfl⟩
  rw [of_decide_eq_true h_parent] at h_parent'
  exact Option.some.inj (of_decide_eq_true h_parent')

/-- One component is resolved rightly just where it is in each of the parents. -/
theorem FrameTree.taken_eq_iff (hT : FrameTree P tab owner) {parents : Set ℕ}
    {component : Locator} :
    taken P tab parents component = follow P tab owner parents component ↔
      ∀ parent ∈ parents, ∀ host, invokeFrame P tab parent = .ok host →
        ∀ child ∈ children tab parent,
          Picked P tab host parent component child ↔ Owned P owner host component child := by
  constructor
  -- a frame has one parent, so the sets can be compared parent by parent
  · intro h_eq parent h_parent host h_host child h_child
    have h_mem := Set.ext_iff.mp h_eq child.frameID
    constructor
    · intro h_picked
      have h_taken := h_mem.mp ⟨parent, h_parent, host, h_host, child, h_child, h_picked, rfl⟩
      obtain ⟨parent', -, host', h_host', child', h_child', h_owned, h_id⟩ := h_taken
      obtain ⟨rfl, rfl⟩ := hT.parent_unique h_child' h_child h_id
      rw [h_host] at h_host'
      exact Except.ok.inj h_host' ▸ h_owned
    · intro h_owned
      have h_taken := h_mem.mpr ⟨parent, h_parent, host, h_host, child, h_child, h_owned, rfl⟩
      obtain ⟨parent', -, host', h_host', child', h_child', h_picked, h_id⟩ := h_taken
      obtain ⟨rfl, rfl⟩ := hT.parent_unique h_child' h_child h_id
      rw [h_host] at h_host'
      exact Except.ok.inj h_host' ▸ h_picked
  · intro h
    ext frameID
    refine exists_congr fun parent => and_congr_right fun h_parent => exists_congr fun host =>
      and_congr_right fun h_host => exists_congr fun child => and_congr_right fun h_child => ?_
    rw [h parent h_parent host h_host child h_child]

/-- Where all parents answer, the condition is about the frames that are taken. -/
theorem FrameTree.right_iff (hT : FrameTree P tab owner) {parents : Set ℕ} {component : Locator}
    (h : AllHost P tab parents) :
    Right P tab owner parents component ↔
      taken P tab parents component = follow P tab owner parents component := by
  rw [hT.taken_eq_iff, Right, or_iff_left fun h_not => h_not.1 h]
  exact and_iff_right h

/-- Where one of them does not, it is that there is nothing to take. -/
theorem right_iff_of_not {parents : Set ℕ} {component : Locator} (h : ¬ AllHost P tab parents) :
    Right P tab owner parents component ↔ follow P tab owner parents component = ∅ := by
  rw [Right, or_iff_right fun h_all => h h_all.1]
  exact and_iff_right h

/-! ### A path -/

theorem named_append (path : List Locator) (component : Locator) :
    named P tab owner (path ++ [component]) =
      follow P tab owner (named P tab owner path) component := by
  rw [named, List.foldl_append]
  rfl

theorem resolveFramePath_append (path : List Locator) (component : Locator) :
    resolveFramePath P tab (path ++ [component]) =
      resolveFramePath P tab path >>= fun parents => followComponent P tab parents component := by
  rw [resolveFramePath, List.foldlM_append]
  refine bind_congr fun parents => ?_
  rw [List.foldlM_cons]
  exact bind_pure _

/-- A path that leads where it should does so with one more component, if and only if that is
followed as it should be. -/
theorem FrameTree.resolves_append (hT : FrameTree P tab owner) {path : List Locator}
    (component : Locator) (h : Resolves P tab owner path) :
    Resolves P tab owner (path ++ [component]) ↔
      Right P tab owner (named P tab owner path) component := by
  unfold Resolves
  rw [named_append, resolveFramePath_append]
  rcases h with ⟨parents, h_path, h_ne, h_named⟩ | ⟨h_empty, e, h_path, h_kind⟩
  · rw [h_path, ← h_named]
    change (∃ frameIDs, followComponent P tab parents component = .ok frameIDs ∧ _) ∨
      _ ∧ (∃ e, followComponent P tab parents component = .error e ∧ _) ↔ _
    -- The component is followed in all parents, or the runtime of one of them does not answer.
    by_cases h_all : AllHost P tab {parent | parent ∈ parents}
    · obtain ⟨next, h_next, h_mem⟩ := hT.foldlM_followParent component h_all []
      have h_taken : {frameID | frameID ∈ next} =
          taken P tab {parent | parent ∈ parents} component := by
        ext frameID
        exact (h_mem frameID).trans (or_iff_right List.not_mem_nil)
      rw [hT.right_iff h_all, ← h_taken]
      by_cases h_nil : next = []
      · have h_component : followComponent P tab parents component =
            .error (frameUnavailable "framePath did not resolve to an available child frame") := by
          rw [followComponent, h_next]
          exact if_pos h_nil
        have h_none : {frameID | frameID ∈ next} = ∅ := by
          rw [h_nil]
          exact Set.eq_empty_of_forall_notMem fun frameID => List.not_mem_nil
        rw [h_component, h_none]
        constructor
        · rintro (⟨frameIDs, h_ok, -⟩ | ⟨h_empty, -⟩)
          · cases h_ok
          · exact h_empty.symm
        · intro h_empty
          exact .inr ⟨h_empty.symm, _, rfl, rfl⟩
      · have h_component : followComponent P tab parents component = .ok next := by
          rw [followComponent, h_next]
          exact if_neg h_nil
        rw [h_component]
        constructor
        · rintro (⟨frameIDs, h_ok, -, h_eq⟩ | ⟨-, e, h_error, -⟩)
          · rw [Except.ok.inj h_ok]
            exact h_eq
          · cases h_error
        · intro h_eq
          exact .inl ⟨next, rfl, h_nil, h_eq⟩
    · obtain ⟨e, h_error⟩ := hT.foldlM_followParent_error component h_all []
      have h_component : followComponent P tab parents component = .error e := by
        rw [followComponent, h_error]
        rfl
      have h_kind := fails_followComponent parents component e h_component
      rw [right_iff_of_not h_all, h_component]
      constructor
      · rintro (⟨frameIDs, h_ok, -⟩ | ⟨h_empty, -⟩)
        · cases h_ok
        · exact h_empty
      · intro h_empty
        exact .inr ⟨h_empty, e, rfl, h_kind⟩
  · -- Nothing is named any more, and the path has failed before.
    rw [h_path, h_empty]
    have h_follow : follow P tab owner ∅ component = ∅ := by
      refine Set.eq_empty_of_forall_notMem ?_
      rintro frameID ⟨parent, h_parent, -⟩
      exact h_parent
    refine iff_of_true (.inr ⟨h_follow, e, rfl, h_kind⟩) (.inl ⟨?_, ?_⟩)
    · intro parent h_parent
      exact h_parent.elim
    · intro parent h_parent
      exact h_parent.elim

theorem resolves_nil : Resolves P tab owner [] := by
  refine .inl ⟨[0], rfl, List.cons_ne_nil _ _, ?_⟩
  ext frameID
  exact List.mem_singleton

/-- **When a path leads to the frames that it names**: the path and all that it begins with do, if
and only if each of its components is followed as it should be from the frames that are named
before. -/
theorem resolves_iff (hT : FrameTree P tab owner) (path : List Locator) :
    (∀ path', path' <+: path → Resolves P tab owner path') ↔
      ∀ path' component, path' ++ [component] <+: path →
        Right P tab owner (named P tab owner path') component := by
  constructor
  · intro h path' component h_prefix
    have h_before := h path' ((List.prefix_append ..).trans h_prefix)
    exact (hT.resolves_append component h_before).mp (h _ h_prefix)
  · intro h path' h_prefix
    induction path' using List.reverseRecOn with
    | nil => exact resolves_nil
    | append_singleton path' component ih =>
      have h_before := ih ((List.prefix_append ..).trans h_prefix)
      exact (hT.resolves_append component h_before).mpr (h path' component h_prefix)

/-- The element that a child frame belongs to. -/
theorem FrameTree.eq_owner (hT : FrameTree P tab owner) {parent : ℕ} {host : Host}
    (h_host : invokeFrame P tab parent = .ok host) {child : Frame}
    (h_child : child ∈ children tab parent) {component : Locator} {e : Element}
    (he : e ∈ matched P host component) (h_id : e.id = owner child.frameID) :
    isIframe P e = true ∧ ∃ src, e.getAttribute "src" = some src ∧
      P.newURL src host.url = some child.url := by
  obtain ⟨e', he', h_id', h_owner⟩ := hT.owned h_host child h_child
  have h_eq := host.document.distinct.eq_of_id he' (mem_ranked.mp he).1 (h_id'.trans h_id.symm)
  exact h_eq ▸ h_owner

/-- Components for iframe elements are followed as they should be, as long as the `src` of each of
them is there and is short enough to be described as a whole. -/
theorem FrameTree.right_of_iframes (hT : FrameTree P tab owner) {parents : Set ℕ}
    {component : Locator} (h_all : AllHost P tab parents)
    (h : ∀ parent ∈ parents, ∀ host, invokeFrame P tab parent = .ok host →
      ∀ e ∈ matched P host component, (∃ child ∈ children tab parent, e.id = owner child.frameID) ∧
        srcOf e ≠ "" ∧ e.getAttribute "src" = some (srcOf e)) :
    Right P tab owner parents component := by
  refine .inl ⟨h_all, fun parent h_parent host h_host child h_child => ⟨?_, ?_⟩⟩
  -- an iframe that leads to a child owns it
  · intro h_picked
    rcases h_picked with ⟨e, he, h_leads⟩ | ⟨h_only, h_one⟩
    · obtain ⟨⟨child', h_child', h_id⟩, h_src, h_attribute⟩ := h parent h_parent host h_host e he
      obtain ⟨h_iframe, src, h_src', h_url⟩ := hT.eq_owner h_host h_child' he h_id
      rw [h_attribute] at h_src'
      rw [Leads, if_neg h_src, Option.some.inj h_src', h_url] at h_leads
      have h_eq := hT.siblings parent child' h_child' child h_child (Option.some.inj h_leads)
      exact ⟨e, he, h_iframe, h_eq ▸ h_id⟩
    · obtain ⟨e, h_matched⟩ := List.length_eq_one_iff.mp h_one
      have he : e ∈ matched P host component := h_matched ▸ List.mem_cons_self
      obtain ⟨⟨child', h_child', h_id⟩, -⟩ := h parent h_parent host h_host e he
      obtain ⟨h_iframe, -⟩ := hT.eq_owner h_host h_child' he h_id
      rw [h_only] at h_child'
      exact ⟨e, he, h_iframe, List.eq_of_mem_singleton h_child' ▸ h_id⟩
  -- and the owner of a child leads to it by its source
  · rintro ⟨e, he, h_iframe, h_id⟩
    obtain ⟨-, h_src, h_attribute⟩ := h parent h_parent host h_host e he
    obtain ⟨-, src, h_src', h_url⟩ := hT.eq_owner h_host h_child he h_id
    rw [h_attribute] at h_src'
    refine .inl ⟨e, he, ?_⟩
    rw [Leads, if_neg h_src, Option.some.inj h_src']
    exact h_url

end

/-! ### A tab with one child frame -/

/-- An element with a tag name that selectors match. -/
def tagged (id : ℕ) (tagName : String) (attributes : List (String × String)) : Element :=
  .mk id { tagName, attributes, cssMatches := fun s => some (s = tagName) } [] []

/-- A page with an iframe and another element. -/
def embedding : Document where
  root := [tagged 0 "iframe" [("src", "https://b.test/")], tagged 1 "div" []]
  distinct := by decide

/-- A tab with one iframe. -/
def embedded : Tab where
  tabID := "tab_1"
  documentEpoch := 1
  frames := [⟨0, none, "https://a.test/", some (embedding, [])⟩,
    ⟨1, some 0, "https://b.test/", some (page "b", [])⟩]

/-- A component that matches elements by their tag name. -/
def byTag (tagName : String) : Locator :=
  .mk { kind := .css, value := some tagName } [] none none none none

/-- Its frames are a tree. -/
theorem frameTree_embedded : FrameTree chrome embedded (fun _ => 0) where
  ids := by decide
  owned := by
    intro parent host h_host child h_child
    obtain ⟨h_mem, h_parent⟩ := List.mem_filter.mp h_child
    -- There is one frame below the root.
    have h_only : ∀ child ∈ embedded.frames, child.parentFrameID ≠ none →
        child.parentFrameID = some 0 ∧ child.url = "https://b.test/" := by decide
    have h_parent := of_decide_eq_true h_parent
    obtain ⟨h_zero, h_url⟩ := h_only child h_mem (by rw [h_parent]; exact Option.some_ne_none _)
    obtain rfl := Option.some.inj (h_parent.symm.trans h_zero)
    obtain rfl := Except.ok.inj h_host
    exact ⟨_, List.mem_cons_self, rfl, by decide, _, rfl, congrArg some h_url.symm⟩
  siblings := by
    have h_urls : (embedded.frames.map (·.url)).Nodup := by decide
    intro parent child h_child child' h_child' h_url
    exact List.inj_on_of_nodup_map h_urls (List.mem_of_mem_filter h_child)
      (List.mem_of_mem_filter h_child') h_url

/-- The element that the iframe selector matches has the child frame. -/
theorem resolves_iff_embedded : Resolves chrome embedded (fun _ => 0) [byTag "iframe"] := by
  refine (resolves_iff frameTree_embedded _).mpr (fun path' component h_prefix => ?_) _
    (List.prefix_refl _)
  have h_length := h_prefix.length_le
  rw [List.length_append, List.length_singleton, List.length_singleton] at h_length
  obtain rfl := List.eq_nil_of_length_eq_zero (Nat.le_zero.mp (Nat.le_of_succ_le_succ h_length))
  obtain rfl : component = byTag "iframe" := (List.cons_prefix_cons.mp h_prefix).1
  refine frameTree_embedded.right_of_iframes ?_ ?_
  · rintro parent rfl
    exact ⟨_, rfl⟩
  · rintro parent rfl host h_host
    obtain rfl := Except.ok.inj h_host
    decide

/-- A component for another element leads to the only child. -/
theorem not_resolvesPath_onlyChild :
    ¬ ∀ (P : Chrome) (tab : Tab) (owner : ℕ → ℕ), FrameTree P tab owner →
      ∀ path, Resolves P tab owner path := by
  intro h
  rcases h chrome embedded _ frameTree_embedded [byTag "div"] with
    ⟨frameIDs, h_ok, -, h_eq⟩ | ⟨-, e, h_error, -⟩
  · obtain rfl := Except.ok.inj h_ok
    -- The code follows the only child, although no iframe is matched.
    have h_named : 1 ∈ named chrome embedded (fun _ => 0) [byTag "div"] := by
      rw [← h_eq]
      exact List.mem_cons_self
    obtain ⟨parent, rfl, host, h_host, child, -, ⟨e, he, h_iframe, -⟩, -⟩ := h_named
    obtain rfl := Except.ok.inj h_host
    have h_none : ∀ e ∈ matched chrome ⟨0, "https://a.test/", embedding, []⟩ (byTag "div"),
        isIframe chrome e = false := by decide
    rw [h_none e he] at h_iframe
    contradiction
  · contradiction

end BrowserControl.Extension.FrameQuery
