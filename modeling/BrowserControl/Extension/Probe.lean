import BrowserControl.Transition.Machine
import Mathlib.Algebra.Group.Prod
import Mathlib.Algebra.Order.Ring.Rat
import Mathlib.Data.List.Basic
import Mathlib.Tactic.Ring

/-!
# Locating an element in a frame of another origin

A click is sent to a point of the tab, and the runtime in a frame of another origin cannot tell
where in the tab its elements are. It puts a mark on the element, and `locateProbe` searches the
targets that the debugger is attached to for the mark. The box that Chrome reports is where the
element is in the view of its own target; from there the loop goes up, from target to target, and
each time adds where the frame of the target is in the view of its parent.

All of this takes time. Between two of its steps targets are attached and detached, and the loop
itself moves pages, since it scrolls every frame into view before it asks for its place.
`locateProbe_correct`: what it returns is where the element is in the tab when it returns, in
whatever order the replies and events come. What is measured first is not invalidated later because
scrolling a frame into view moves only the pages above it, and the loop ends because a target is
attached after its parent.

Coordinates are rational numbers.
-/

namespace BrowserControl.Extension.Probe

open Transition

/-! ### Boxes -/

/-- A box in the coordinates of a page. -/
structure Rect where
  x : ℚ
  y : ℚ
  width : ℚ
  height : ℚ
  deriving DecidableEq

/-- The box in a view in which its own view is at this place. -/
def Rect.shift (box : Rect) (place : ℚ × ℚ) : Rect :=
  { box with x := box.x + place.1, y := box.y + place.2 }

/-- Axis-aligned bounds of a quad. All numbers are finite. -/
def quadBounds : Option (List ℚ) → Option Rect
  | some (x₀ :: y₀ :: x₁ :: y₁ :: x₂ :: y₂ :: x₃ :: y₃ :: _) =>
    let x := min (min (min x₀ x₁) x₂) x₃
    let y := min (min (min y₀ y₁) y₂) y₃
    let width := max (max (max x₀ x₁) x₂) x₃ - x
    let height := max (max (max y₀ y₁) y₂) y₃ - y
    if width ≤ 0 ∨ height ≤ 0 then none else some ⟨x, y, width, height⟩
  | _ => none

/-- Where `performTargetAction` clicks. -/
def clickPoint (bounds : Rect) : ℚ × ℚ :=
  (bounds.x + bounds.width / 2, bounds.y + bounds.height / 2)

/-! ### Chrome -/

/-- What Chrome tells of a target when it attaches. -/
structure TargetSession where
  sessionID : String
  targetID : String
  type : String
  url : String
  parentSessionID : Option String
  deriving DecidableEq

/-- What Chrome answers about the pages of a tab as they are now. A page is named by the session of
its target; the tab itself has none. -/
structure Layout where
  /-- The quads of a node in the view of its page. -/
  contentQuads : Option String → ℕ → List (List ℚ)
  /-- The content quad of the box model of a node. -/
  boxModel : Option String → ℕ → List ℚ

/-- What does not change about a tab. Session ids are not used twice, so an id stands for one
target in one parent. -/
structure Chrome where
  session : String → TargetSession
  sessionID_eq : ∀ id, (session id).sessionID = id
  /-- The page in which the marked element is, and its node there. -/
  host : Option String
  node : ℕ
  /-- The element that holds the frame of a target. -/
  owner : String → ℕ

section

variable (chrome : Chrome)

/-- The session above a session. -/
def Chrome.parent (id : String) : Option String := (chrome.session id).parentSessionID

/-- Where the frame of a target is in the view of its parent, as Chrome would answer. -/
def Chrome.frame (layout : Layout) (id : String) : Option Rect :=
  quadBounds (some (layout.boxModel (chrome.parent id) (chrome.owner (chrome.session id).targetID)))

/-- **Where the view of a page is in the tab.** -/
inductive Placed (layout : Layout) : Option String → ℚ × ℚ → Prop where
  | tab : Placed layout none (0, 0)
  | frame {id : String} {place : ℚ × ℚ} {content : Rect}
      (h : Placed layout (chrome.parent id) place)
      (h_content : chrome.frame layout id = some content) :
      Placed layout (some id) (place.1 + content.x, place.2 + content.y)

/-- The page itself and those above it. -/
inductive Above : Option String → Option String → Prop where
  | self (page : Option String) : Above page page
  | parent {id : String} {page : Option String} (h : Above (chrome.parent id) page) :
      Above (some id) page

/-- Scrolling an element of a page into view moves what is in this page and in the pages above it,
and nothing in any other page. -/
def Scrolled (page : Option String) (layout layout' : Layout) : Prop :=
  ∀ other, ¬ Above chrome page other →
    layout'.contentQuads other = layout.contentQuads other ∧
      layout'.boxModel other = layout.boxModel other

end

/-! ### The extension -/

/-- The entries of a map, in the order in which they were added. -/
abbrev Sessions := List TargetSession

/-- `Map.set`: a session keeps its place. -/
def Sessions.set (sessions : Sessions) (session : TargetSession) : Sessions :=
  if sessions.any (·.sessionID = session.sessionID) then
    sessions.map fun old => if old.sessionID = session.sessionID then session else old
  else sessions ++ [session]

/-- `Map.get`. -/
def Sessions.get (sessions : Sessions) (id : String) : Option TargetSession :=
  sessions.find? (·.sessionID = id)

/-- `Map.delete`. -/
def Sessions.delete (sessions : Sessions) (id : String) : Sessions :=
  sessions.filter (·.sessionID ≠ id)

/-- Where a call of `locateProbe` is. -/
inductive Phase where
  | outside
  /-- It waits for the search in the first of these pages. -/
  | searching (pages : List (Option String))
  /-- It waits for the quads of the node that it has found. -/
  | measuring (page : Option String) (node : ℕ)
  /-- It is at the head of the loop. -/
  | climbing (box : Rect) (current : Option String)
  /-- It waits for the owner of the frame of a target. -/
  | asking (box : Rect) (session : TargetSession)
  /-- It waits for the owner to be in view. -/
  | scrolling (box : Rect) (session : TargetSession) (owner : ℕ)
  /-- It waits for the box model of the owner. -/
  | modelling (box : Rect) (session : TargetSession) (owner : ℕ)
  | returned (result : Option Rect)
  | thrown
  deriving DecidableEq

/-- The sessions, the layout of the pages, and where the probe is. -/
structure State where
  sessions : Sessions
  phase : Phase
  layout : Layout
  /-- The targets that have been attached so far, in this order. -/
  known : List String
  /-- The turns of the loop so far. -/
  turns : ℕ

/-- What Chrome tells, and the replies for which the probe waits. -/
inductive Event where
  /-- `Target.attachedToTarget`, and the session over which it comes. -/
  | attachedToTarget (source : Option String) (id : String)
  | detachedFromTarget (id : String)
  | start
  /-- The reply of `#searchNode`. -/
  | searched (node : Option ℕ)
  /-- The reply of `DOM.getContentQuads`. -/
  | quads (quads : List (List ℚ))
  /-- The condition of the loop, and its first two lines. -/
  | turn
  /-- The reply of `DOM.getFrameOwner`; zero if there is no node in it. -/
  | frameOwner (node : ℕ)
  /-- `DOM.scrollIntoViewIfNeeded` is over, and the pages are like this. -/
  | scrolled (layout : Layout)
  /-- The reply of `DOM.getBoxModel`. -/
  | boxModel (content : Option (List ℚ))
  /-- The command that is waited for fails. -/
  | fails

section

variable (chrome : Chrome)

/-- Chrome answers as the pages are, or does not know. -/
def enabled (s : State) : Event → Prop
  | .attachedToTarget source id =>
    source = chrome.parent id ∧ id ∉ s.known ∧ ∀ parent, source = some parent → parent ∈ s.known
  | .detachedFromTarget _ => True
  | .start =>
    match s.phase with
    | .outside => True
    | _ => False
  -- The search answers with the node only in the page it is in.
  | .searched node =>
    match s.phase with
    | .searching (page :: _) => ∀ n, node = some n → page = chrome.host ∧ n = chrome.node
    | _ => False
  | .quads quads =>
    match s.phase with
    | .measuring page node => quads = s.layout.contentQuads page node
    | _ => False
  | .turn =>
    match s.phase with
    | .climbing _ _ => True
    | _ => False
  -- `DOM.getFrameOwner` answers with the owner, or with none.
  | .frameOwner node =>
    match s.phase with
    | .asking _ session => node = 0 ∨ node = chrome.owner session.targetID
    | _ => False
  -- The page may be scrolled by this step and no other.
  | .scrolled layout =>
    match s.phase with
    | .scrolling _ session _ => Scrolled chrome session.parentSessionID s.layout layout
    | _ => False
  | .boxModel content =>
    match s.phase with
    | .modelling _ session owner =>
      content = none ∨ content = some (s.layout.boxModel session.parentSessionID owner)
    | _ => False
  | .fails =>
    match s.phase with
    | .searching (_ :: _) => True
    | .measuring _ _ => True
    | .asking _ _ => True
    | .modelling _ _ _ => True
    | _ => False

/-- The pages that are searched: that of the tab, and those of the frames that are attached. -/
def pages (sessions : Sessions) : List (Option String) :=
  none :: (sessions.filter (·.type = "iframe")).map fun session => some session.sessionID

/-- The search goes on, or comes to its end. -/
def search : List (Option String) → Phase
  | [] => .returned none
  | page :: rest => .searching (page :: rest)

/-- One step of the probe, or of the pages. -/
def next (s : State) : Event → State
  | .attachedToTarget source id =>
    { s with
      sessions := s.sessions.set { chrome.session id with parentSessionID := source }
      known := s.known ++ [id] }
  | .detachedFromTarget id => { s with sessions := s.sessions.delete id }
  | .start => { s with phase := .searching (pages s.sessions) }
  | .searched node =>
    match s.phase with
    | .searching (page :: rest) =>
      { s with
        phase :=
          match node with
          | none => search rest
          | some n => .measuring page n }
    | _ => s
  | .quads quads =>
    match s.phase with
    | .measuring page _ =>
      { s with
        phase :=
          match quadBounds quads.head? with
          | none => .returned none
          | some box => .climbing box page }
    | _ => s
  | .turn =>
    match s.phase with
    | .climbing box none => { s with phase := .returned (some box) }
    | .climbing box (some current) =>
      { s with
        phase :=
          match s.sessions.get current with
          | none => .returned none
          | some session => .asking box session }
    | _ => s
  | .frameOwner node =>
    match s.phase with
    | .asking box session =>
      { s with phase := if node = 0 then .returned none else .scrolling box session node }
    | _ => s
  -- an error of this command is caught
  | .scrolled layout =>
    match s.phase with
    | .scrolling box session owner =>
      { s with phase := .modelling box session owner, layout := layout }
    | _ => s
  | .boxModel content =>
    match s.phase with
    | .modelling box session _ =>
      match quadBounds content with
      | none => { s with phase := .returned none }
      | some content =>
        { s with
          phase := .climbing (box.shift (content.x, content.y)) session.parentSessionID
          turns := s.turns + 1 }
    | _ => s
  | .fails => { s with phase := .thrown }

/-- The debugger has just been attached. -/
def machine (layout : Layout) : Machine State Event where
  init := ⟨[], .outside, layout, [], 0⟩
  enabled := enabled chrome
  next := next chrome

end

/-! ### The order of targets -/

/-- The place of a page in the order in which targets have been attached; the tab comes first. -/
def rank (known : List String) : Option String → ℕ
  | none => 0
  | some id => known.idxOf id + 1

/-- The page of the tab, or of a target that has been attached. -/
def Known (known : List String) (page : Option String) : Prop := ∀ id, page = some id → id ∈ known

section

variable (chrome : Chrome)

/-- A target has been attached after its parent. -/
def Ordered (known : List String) : Prop :=
  ∀ id ∈ known, Known known (chrome.parent id) ∧
    rank known (chrome.parent id) < rank known (some id)

variable {chrome} {known : List String}

theorem rank_append {page : Option String} (h : Known known page) (id : String) :
    rank (known ++ [id]) page = rank known page := by
  cases page with
  | none => rfl
  | some other =>
    rw [rank, rank, List.idxOf_append_of_mem (h other rfl)]

/-- What was attached stays known. -/
theorem Known.append {page : Option String} (h : Known known page) (id : String) :
    Known (known ++ [id]) page :=
  fun other h_other => List.mem_append_left _ (h other h_other)

/-- The rank is at most the number of targets. -/
theorem rank_le_length {page : Option String} (h : Known known page) :
    rank known page ≤ known.length := by
  cases page with
  | none => exact Nat.zero_le _
  | some id => exact List.idxOf_lt_length_iff.mpr (h id rfl)

/-- A new target comes after its parent. -/
theorem Ordered.append (h : Ordered chrome known) {id : String} (h_new : id ∉ known)
    (h_parent : Known known (chrome.parent id)) : Ordered chrome (known ++ [id]) := by
  intro other h_other
  rcases List.mem_append.mp h_other with h_old | h_last
  · obtain ⟨h_known, h_lt⟩ := h other h_old
    have h_self : Known known (some other) := fun _ h_eq => Option.some.inj h_eq ▸ h_old
    rw [rank_append h_known, rank_append h_self]
    exact ⟨h_known.append id, h_lt⟩
  · obtain rfl := List.eq_of_mem_singleton h_last
    refine ⟨h_parent.append other, ?_⟩
    have h_last : (known ++ [other]).idxOf other = known.length := by
      rw [List.idxOf_append_of_notMem h_new, List.idxOf_cons_self, Nat.add_zero]
    rw [rank_append h_parent, rank, h_last]
    exact Nat.lt_succ_of_le (rank_le_length h_parent)

/-- What is above a page has been attached before it. -/
theorem rank_le_of_above (h : Ordered chrome known) {page other : Option String}
    (h_known : Known known page) (h_above : Above chrome page other) :
    rank known other ≤ rank known page := by
  induction h_above with
  | self => exact le_rfl
  | @parent id _ _ ih =>
    obtain ⟨h_parent, h_lt⟩ := h id (h_known id rfl)
    exact (ih h_parent).trans h_lt.le

end

/-! ### Going up -/

section

variable (chrome : Chrome)

/-- How far the loop has come when it has added up this much, if the pages are as they are now. -/
inductive Climbed (layout : Layout) : Option String → ℚ × ℚ → Prop where
  | host : Climbed layout chrome.host (0, 0)
  | frame {id : String} {sum : ℚ × ℚ} {content : Rect} (h : Climbed layout (some id) sum)
      (h_content : chrome.frame layout id = some content) :
      Climbed layout (chrome.parent id) (sum.1 + content.x, sum.2 + content.y)

/-- The box is where the element is in the view of this page. -/
def Located (layout : Layout) (page : Option String) (box : Rect) : Prop :=
  ∃ own sum, quadBounds (layout.contentQuads chrome.host chrome.node).head? = some own ∧
    Climbed chrome layout page sum ∧ box = own.shift sum

variable {chrome} {known : List String} {layout layout' : Layout}

/-- What was climbed is above the host, and so not after it. -/
theorem Climbed.le_host (h : Ordered chrome known) (h_host : Known known chrome.host)
    {page : Option String} {sum : ℚ × ℚ} (h_climbed : Climbed chrome layout page sum) :
    Known known page ∧ rank known page ≤ rank known chrome.host := by
  induction h_climbed with
  | host => exact ⟨h_host, le_rfl⟩
  | @frame id _ _ _ _ ih =>
    obtain ⟨h_known, h_le⟩ := ih
    obtain ⟨h_parent, h_lt⟩ := h id (h_known id rfl)
    exact ⟨h_parent, h_lt.le.trans h_le⟩

/-- **What is measured stays measured.** Scrolling above the page that has been reached does not
move the frames that have been added up. -/
theorem Climbed.scrolled (h : Ordered chrome known) (h_host : Known known chrome.host)
    {page : Option String} {sum : ℚ × ℚ} (h_climbed : Climbed chrome layout page sum)
    {above : Option String} (h_above : Known known above)
    (h_lt : rank known above < rank known page)
    (h_scrolled : Scrolled chrome above layout layout') :
    Climbed chrome layout' page sum := by
  induction h_climbed with
  | host => exact .host
  | @frame id _ _ h_below h_content ih =>
    obtain ⟨h_known, -⟩ := h_below.le_host h h_host
    have h_parent := (h id (h_known id rfl)).2
    refine .frame (ih (h_lt.trans h_parent)) ?_
    -- the frame is in a page that is not above the one that is scrolled
    have h_page : ¬ Above chrome above (chrome.parent id) := fun h_is =>
      absurd (rank_le_of_above h h_above h_is) h_lt.not_ge
    rw [Chrome.frame, (h_scrolled _ h_page).2]
    exact h_content

/-- The box stays right when what is above is scrolled. -/
theorem Located.scrolled (h : Ordered chrome known) (h_host : Known known chrome.host)
    {page : Option String} {box : Rect} (h_located : Located chrome layout page box)
    {above : Option String} (h_above : Known known above)
    (h_lt : rank known above < rank known page)
    (h_scrolled : Scrolled chrome above layout layout') :
    Located chrome layout' page box := by
  obtain ⟨own, sum, h_own, h_climbed, h_box⟩ := h_located
  refine ⟨own, sum, ?_, h_climbed.scrolled h h_host h_above h_lt h_scrolled, h_box⟩
  have h_le := (h_climbed.le_host h h_host).2
  have h_page : ¬ Above chrome above chrome.host := fun h_is =>
    absurd (rank_le_of_above h h_above h_is) (h_lt.trans_le h_le).not_ge
  rw [(h_scrolled _ h_page).1]
  exact h_own

/-- One turn of the loop. -/
theorem Located.frame {id : String} {box content : Rect} (h : Located chrome layout (some id) box)
    (h_content : chrome.frame layout id = some content) :
    Located chrome layout (chrome.parent id) (box.shift (content.x, content.y)) := by
  obtain ⟨own, sum, h_own, h_climbed, rfl⟩ := h
  refine ⟨own, _, h_own, h_climbed.frame h_content, ?_⟩
  simp only [Rect.shift, add_assoc]

/-- Adding up from the element to the tab is placing from the tab to the element. -/
theorem Placed.of_climbed {page : Option String} {sum place : ℚ × ℚ}
    (h : Climbed chrome layout page sum) (h_placed : Placed chrome layout page place) :
    Placed chrome layout chrome.host (sum + place) := by
  induction h generalizing place with
  | host =>
    have h_zero : ((0, 0) : ℚ × ℚ) + place = place := zero_add place
    rw [h_zero]
    exact h_placed
  -- One level up: the origin of the frame's content is added on both sides.
  | @frame id sum content _ h_content ih =>
    have h_next := ih (h_placed.frame h_content)
    have h_sum : sum + (place.1 + content.x, place.2 + content.y) =
        (sum.1 + content.x, sum.2 + content.y) + place := by
      refine Prod.ext ?_ ?_
      · show sum.1 + (place.1 + content.x) = sum.1 + content.x + place.1
        ring
      · show sum.2 + (place.2 + content.y) = sum.2 + content.y + place.2
        ring
    rwa [h_sum] at h_next

end

/-! ### The invariant -/

section

variable (chrome : Chrome)

/-- The loop is at this target, with this box. -/
structure At (known : List String) (layout : Layout) (turns : ℕ) (box : Rect)
    (session : TargetSession) : Prop where
  host : Known known chrome.host
  located : Located chrome layout (some session.sessionID) box
  is_session : session = chrome.session session.sessionID
  turns : turns + rank known (some session.sessionID) ≤ known.length

/-- What is known in a phase. -/
def InPhase (s : State) : Phase → Prop
  | .outside => s.turns = 0
  | .searching pages => s.turns = 0 ∧ ∀ page ∈ pages, Known s.known page
  | .measuring page node =>
    s.turns = 0 ∧ page = chrome.host ∧ node = chrome.node ∧ Known s.known chrome.host
  -- What is left to climb is at most the rank of the session.
  | .climbing box current =>
    Known s.known chrome.host ∧ Located chrome s.layout current box ∧
      s.turns + rank s.known current ≤ s.known.length
  | .asking box session => At chrome s.known s.layout s.turns box session
  | .scrolling box session owner =>
    At chrome s.known s.layout s.turns box session ∧ owner = chrome.owner session.targetID
  | .modelling box session owner =>
    At chrome s.known s.layout s.turns box session ∧ owner = chrome.owner session.targetID
  | .returned none => s.turns ≤ s.known.length
  | .returned (some box) => Located chrome s.layout none box ∧ s.turns ≤ s.known.length
  | .thrown => s.turns ≤ s.known.length

/-- The order of the targets, and what the probe knows where it is. -/
structure Inv (s : State) : Prop where
  ordered : Ordered chrome s.known
  sessions : ∀ session ∈ s.sessions,
    session = chrome.session session.sessionID ∧ session.sessionID ∈ s.known
  inPhase : InPhase chrome s s.phase

variable {chrome} {s : State}

/-- A session in the map is the new one or an old one. -/
theorem mem_set {sessions : Sessions} {session other : TargetSession}
    (h : other ∈ sessions.set session) : other = session ∨ other ∈ sessions := by
  unfold Sessions.set at h
  split_ifs at h with h_any
  · obtain ⟨old, h_old, rfl⟩ := List.mem_map.mp h
    split_ifs with h_eq
    · exact .inl rfl
    · exact .inr h_old
  · rcases List.mem_append.mp h with h_old | h_new
    · exact .inr h_old
    · exact .inl (List.eq_of_mem_singleton h_new)

/-- What is found is in the map, under its id. -/
theorem of_get {sessions : Sessions} {id : String} {session : TargetSession}
    (h : sessions.get id = some session) : session ∈ sessions ∧ session.sessionID = id :=
  by
  have h_id := List.find?_some h
  exact ⟨List.mem_of_find?_eq_some h, of_decide_eq_true h_id⟩

/-- One more target does not matter to a loop that is under way. -/
theorem At.append {known : List String} {layout : Layout} {turns : ℕ} {box : Rect}
    {session : TargetSession} (h : At chrome known layout turns box session)
    (h_ordered : Ordered chrome known) (id : String) :
    At chrome (known ++ [id]) layout turns box session := by
  obtain ⟨own, sum, h_own, h_climbed, h_box⟩ := h.located
  have h_known := (h_climbed.le_host h_ordered h.host).1
  refine ⟨h.host.append id, h.located, h.is_session, ?_⟩
  rw [rank_append h_known, List.length_append]
  exact h.turns.trans (Nat.le_add_right _ _)

/-- A target attaches while the probe is at work. -/
theorem InPhase.append {phase : Phase} (h : InPhase chrome s phase)
    (h_ordered : Ordered chrome s.known) (target : String) (sessions : Sessions) :
    InPhase chrome { s with sessions := sessions, known := s.known ++ [target] } phase := by
  have h_length : s.known.length ≤ (s.known ++ [target]).length := by
    rw [List.length_append]
    exact Nat.le_add_right _ _
  -- more targets: every rank stays, and the bound on the turns grows
  cases phase with
  | outside => exact h
  | searching pages => exact ⟨h.1, fun page h_page => (h.2 page h_page).append target⟩
  | measuring page node => exact ⟨h.1, h.2.1, h.2.2.1, h.2.2.2.append target⟩
  | climbing box current =>
    obtain ⟨h_host, h_located, h_turns⟩ := h
    have ⟨own, sum, h_own, h_climbed, h_box⟩ := h_located
    refine ⟨h_host.append target, h_located, ?_⟩
    show s.turns + rank (s.known ++ [target]) current ≤ (s.known ++ [target]).length
    rw [rank_append (h_climbed.le_host h_ordered h_host).1]
    exact h_turns.trans h_length
  | asking box session => exact At.append h h_ordered target
  | scrolling box session owner => exact ⟨At.append h.1 h_ordered target, h.2⟩
  | modelling box session owner => exact ⟨At.append h.1 h_ordered target, h.2⟩
  | returned result =>
    cases result with
    | none => exact Nat.le_trans h h_length
    | some box => exact ⟨h.1, h.2.trans h_length⟩
  | thrown => exact Nat.le_trans h h_length

/-- The bound on the turns does not depend on where the loop is. -/
theorem InPhase.turns_le {phase : Phase} (h : InPhase chrome s phase) :
    s.turns ≤ s.known.length := by
  cases phase with
  | outside => exact h.trans_le (Nat.zero_le _)
  | searching pages => exact h.1.trans_le (Nat.zero_le _)
  | measuring page node => exact h.1.trans_le (Nat.zero_le _)
  | climbing box current => exact (Nat.le_add_right _ _).trans h.2.2
  | asking box session => exact (Nat.le_add_right _ _).trans h.turns
  | scrolling box session owner => exact (Nat.le_add_right _ _).trans h.1.turns
  | modelling box session owner => exact (Nat.le_add_right _ _).trans h.1.turns
  | returned result =>
    cases result with
    | none => exact h
    | some box => exact h.2
  | thrown => exact h

/-- The same for the whole state. -/
theorem Inv.attached (h : Inv chrome s) {source : Option String} {id : String}
    (h_source : source = chrome.parent id) (h_new : id ∉ s.known)
    (h_parent : Known s.known source) :
    Inv chrome (next chrome s (.attachedToTarget source id)) := by
  have h_session : { chrome.session id with parentSessionID := source } = chrome.session id := by
    rw [h_source]
    rfl
  refine ⟨h.ordered.append h_new (h_source ▸ h_parent), ?_, h.inPhase.append h.ordered id _⟩
  intro session h_mem
  rcases mem_set h_mem with h_eq | h_old
  · rw [h_session] at h_eq
    rw [h_eq, chrome.sessionID_eq]
    exact ⟨rfl, List.mem_append_right _ List.mem_cons_self⟩
  · obtain ⟨h_is, h_known⟩ := h.sessions session h_old
    exact ⟨h_is, List.mem_append_left _ h_known⟩

/-- A target detaches while the probe is at work. -/
theorem InPhase.delete {phase : Phase} (h : InPhase chrome s phase) (sessions : Sessions) :
    InPhase chrome { s with sessions } phase := by
  cases phase with
  | returned result => cases result <;> exact h
  | _ => exact h

/-- The same for the whole state. -/
theorem Inv.detached (h : Inv chrome s) (id : String) :
    Inv chrome (next chrome s (.detachedFromTarget id)) :=
  ⟨h.ordered, fun session h_mem => h.sessions session (List.mem_of_mem_filter h_mem),
    h.inPhase.delete _⟩

/-- A step of the loop leaves the targets alone. -/
theorem Inv.setPhase (h : Inv chrome s) {phase : Phase} (h_phase : InPhase chrome s phase) :
    Inv chrome { s with phase } := by
  refine ⟨h.ordered, h.sessions, ?_⟩
  cases phase with
  | returned result => cases result <;> exact h_phase
  | _ => exact h_phase

/-- A search goes through pages that are known. -/
theorem inPhase_search {pages : List (Option String)} (h_turns : s.turns = 0)
    (h : ∀ page ∈ pages, Known s.known page) : InPhase chrome s (search pages) := by
  cases pages with
  | nil => exact h_turns.trans_le (Nat.zero_le _)
  | cons page rest => exact ⟨h_turns, h⟩

/-- All sessions of the map are known. -/
theorem known_pages (h : Inv chrome s) : ∀ page ∈ pages s.sessions, Known s.known page := by
  intro page h_page
  rcases List.mem_cons.mp h_page with rfl | h_page
  · rintro id ⟨⟩
  · obtain ⟨session, h_session, rfl⟩ := List.mem_map.mp h_page
    rintro id ⟨⟩
    exact (h.sessions session (List.mem_of_mem_filter h_session)).2

/-- What the invariant says of one phase. -/
theorem Inv.at_phase (h : Inv chrome s) {phase : Phase} (h_phase : s.phase = phase) :
    InPhase chrome s phase := h_phase ▸ h.inPhase

/-- The parent of a target has been attached before it. -/
theorem At.parent {known : List String} {layout : Layout} {turns : ℕ} {box : Rect}
    {session : TargetSession} (h : At chrome known layout turns box session)
    (h_ordered : Ordered chrome known) :
    Known known session.parentSessionID ∧
      rank known session.parentSessionID < rank known (some session.sessionID) := by
  obtain ⟨own, sum, h_own, h_climbed, h_box⟩ := h.located
  have h_known := (h_climbed.le_host h_ordered h.host).1 session.sessionID rfl
  have h_parent := h_ordered session.sessionID h_known
  rw [Chrome.parent, ← h.is_session] at h_parent
  exact h_parent

/-- A page has the element, or the search goes on. -/
theorem Inv.searched (h : Inv chrome s) {page : Option String} {rest : List (Option String)}
    (h_phase : s.phase = .searching (page :: rest)) {node : Option ℕ}
    (h_node : ∀ n, node = some n → page = chrome.host ∧ n = chrome.node) :
    Inv chrome (next chrome s (.searched node)) := by
  obtain ⟨h_turns, h_pages⟩ := h.at_phase h_phase
  rw [List.forall_mem_cons] at h_pages
  unfold next
  rw [h_phase]
  refine h.setPhase ?_
  cases node with
  | none => exact inPhase_search h_turns h_pages.2
  | some n =>
    obtain ⟨rfl, rfl⟩ := h_node n rfl
    exact ⟨h_turns, rfl, rfl, h_pages.1⟩

/-- The box of the element in its own page. -/
theorem Inv.quads (h : Inv chrome s) {page : Option String} {node : ℕ}
    (h_phase : s.phase = .measuring page node) :
    Inv chrome (next chrome s (.quads (s.layout.contentQuads page node))) := by
  obtain ⟨h_turns, rfl, rfl, h_host⟩ := h.at_phase h_phase
  unfold next
  rw [h_phase]
  refine h.setPhase ?_
  cases h_own : quadBounds (s.layout.contentQuads chrome.host chrome.node).head? with
  | none => exact h_turns.trans_le (Nat.zero_le _)
  | some own =>
    have h_zero : own.shift (0, 0) = own := by simp only [Rect.shift, add_zero]
    refine ⟨h_host, ⟨own, (0, 0), h_own, .host, h_zero.symm⟩, ?_⟩
    rw [h_turns, Nat.zero_add]
    exact rank_le_length h_host

/-- One turn of the loop begins. -/
theorem Inv.turn (h : Inv chrome s) {box : Rect} {current : Option String}
    (h_phase : s.phase = .climbing box current) : Inv chrome (next chrome s .turn) := by
  obtain ⟨h_host, h_located, h_turns⟩ := h.at_phase h_phase
  have h_le : s.turns ≤ s.known.length := (Nat.le_add_right _ _).trans h_turns
  unfold next
  rw [h_phase]
  cases current with
  | none => exact @Inv.setPhase chrome s h (.returned (some box)) ⟨h_located, h_le⟩
  | some id =>
    refine h.setPhase ?_
    cases h_get : s.sessions.get id with
    | none => exact h_le
    | some session =>
      -- the entry may be gone, but if it is there it is the target that the id stands for
      obtain ⟨h_mem, rfl⟩ := of_get h_get
      exact ⟨h_host, h_located, (h.sessions session h_mem).1, h_turns⟩

/-- The owner of the frame is known. -/
theorem Inv.frameOwner (h : Inv chrome s) {box : Rect} {session : TargetSession}
    (h_phase : s.phase = .asking box session) {node : ℕ}
    (h_node : node = 0 ∨ node = chrome.owner session.targetID) :
    Inv chrome (next chrome s (.frameOwner node)) := by
  have h_at : At chrome s.known s.layout s.turns box session := h.at_phase h_phase
  unfold next
  rw [h_phase]
  refine h.setPhase ?_
  split_ifs with h_zero
  · exact (Nat.le_add_right _ _).trans h_at.turns
  · exact ⟨h_at, h_node.resolve_left h_zero⟩

/-- The owner is scrolled into view, and nothing below moves. -/
theorem Inv.scrolled (h : Inv chrome s) {box : Rect} {session : TargetSession} {owner : ℕ}
    (h_phase : s.phase = .scrolling box session owner) {layout : Layout}
    (h_scrolled : Scrolled chrome session.parentSessionID s.layout layout) :
    Inv chrome (next chrome s (.scrolled layout)) := by
  obtain ⟨h_at, h_owner⟩ : At chrome s.known s.layout s.turns box session ∧
    owner = chrome.owner session.targetID := h.at_phase h_phase
  obtain ⟨h_parent, h_lt⟩ := h_at.parent h.ordered
  unfold next
  rw [h_phase]
  refine ⟨h.ordered, h.sessions, ⟨⟨h_at.host, ?_, h_at.is_session, h_at.turns⟩, h_owner⟩⟩
  exact h_at.located.scrolled h.ordered h_at.host h_parent h_lt h_scrolled

/-- The box of the owner is added up. -/
theorem Inv.boxModel (h : Inv chrome s) {box : Rect} {session : TargetSession} {owner : ℕ}
    (h_phase : s.phase = .modelling box session owner) {content : Option (List ℚ)}
    (h_content : content = none ∨
      content = some (s.layout.boxModel session.parentSessionID owner)) :
    Inv chrome (next chrome s (.boxModel content)) := by
  obtain ⟨h_at, h_owner⟩ : At chrome s.known s.layout s.turns box session ∧
    owner = chrome.owner session.targetID := h.at_phase h_phase
  obtain ⟨h_parent, h_lt⟩ := h_at.parent h.ordered
  have h_turns := h_at.turns
  unfold next
  rw [h_phase]
  dsimp only
  -- without a box there is no answer
  cases h_bounds : quadBounds content with
  | none => exact @Inv.setPhase chrome s h (.returned none) ((Nat.le_add_right _ _).trans h_turns)
  -- with one the point moves into the frame of the parent
  | some bounds =>
    have h_some : content = some (s.layout.boxModel session.parentSessionID owner) := by
      refine h_content.resolve_left ?_
      rintro rfl
      cases h_bounds
    have h_frame : chrome.frame s.layout session.sessionID = some bounds := by
      rw [Chrome.frame, Chrome.parent, ← h_at.is_session, ← h_owner, ← h_some, h_bounds]
    refine ⟨h.ordered, h.sessions, h_at.host, ?_, ?_⟩
    · have h_next := h_at.located.frame h_frame
      rw [Chrome.parent, ← h_at.is_session] at h_next
      exact h_next
    · show s.turns + 1 + rank s.known session.parentSessionID ≤ s.known.length
      omega

/-- **Every step keeps the invariant.** -/
theorem Inv.next {e : Event} (h : Inv chrome s) (h_enabled : enabled chrome s e) :
    Inv chrome (next chrome s e) := by
  cases e with
  -- the sessions: a new one is put below the one that announces it
  | attachedToTarget source id =>
    obtain ⟨h_source, h_new, h_parent⟩ := h_enabled
    exact h.attached h_source h_new h_parent
  | detachedFromTarget id => exact h.detached id
  -- The answers of the browser, each in the phase that waits for it.
  | start =>
    unfold enabled at h_enabled
    cases h_phase : s.phase with
    | outside =>
      have h_turns : s.turns = 0 := by
        have h_in := h.inPhase
        rw [h_phase] at h_in
        exact h_in
      exact @Inv.setPhase chrome s h (.searching (pages s.sessions)) ⟨h_turns, known_pages h⟩
    | _ =>
      rw [h_phase] at h_enabled
      exact h_enabled.elim
  | searched node =>
    unfold enabled at h_enabled
    cases h_phase : s.phase with
    | searching pages =>
      rw [h_phase] at h_enabled
      cases pages with
      | nil => exact h_enabled.elim
      | cons page rest => exact h.searched h_phase h_enabled
    | _ =>
      rw [h_phase] at h_enabled
      exact h_enabled.elim
  | quads quads =>
    unfold enabled at h_enabled
    cases h_phase : s.phase with
    | measuring page node =>
      rw [h_phase] at h_enabled
      exact h_enabled ▸ h.quads h_phase
    | _ =>
      rw [h_phase] at h_enabled
      exact h_enabled.elim
  -- one turn of the loop towards the page; the rank of the session falls
  | turn =>
    unfold enabled at h_enabled
    cases h_phase : s.phase with
    | climbing box current => exact h.turn h_phase
    | _ =>
      rw [h_phase] at h_enabled
      exact h_enabled.elim
  | frameOwner node =>
    unfold enabled at h_enabled
    cases h_phase : s.phase with
    | asking box session =>
      rw [h_phase] at h_enabled
      exact h.frameOwner h_phase h_enabled
    | _ =>
      rw [h_phase] at h_enabled
      exact h_enabled.elim
  -- the owner is scrolled into view, which moves no box of the subframe
  | scrolled layout =>
    unfold enabled at h_enabled
    cases h_phase : s.phase with
    | scrolling box session owner =>
      rw [h_phase] at h_enabled
      exact h.scrolled h_phase h_enabled
    | _ =>
      rw [h_phase] at h_enabled
      exact h_enabled.elim
  | boxModel content =>
    unfold enabled at h_enabled
    cases h_phase : s.phase with
    | modelling box session owner =>
      rw [h_phase] at h_enabled
      exact h.boxModel h_phase h_enabled
    | _ =>
      rw [h_phase] at h_enabled
      exact h_enabled.elim
  | fails => exact @Inv.setPhase chrome s h .thrown h.inPhase.turns_le

/-- The invariant holds in every state. -/
theorem inv {layout : Layout} (hs : (machine chrome layout).Reachable s) : Inv chrome s := by
  refine Machine.Reachable.induction ?_ (fun _ _ _ h h_enabled => h.next h_enabled) hs
  exact ⟨fun _ h => absurd h (List.not_mem_nil), fun _ h => absurd h (List.not_mem_nil), rfl⟩

/-- **A box that is returned is where the element is.** Its place is that of the page of the
element in the tab, as the pages are now, so that a click in its middle is a click in the middle of
the element. The loop has taken no more turns than targets have been attached. -/
theorem locateProbe_correct {layout : Layout} (hs : (machine chrome layout).Reachable s) :
    s.turns ≤ s.known.length ∧
    ∀ box, s.phase = .returned (some box) →
      ∃ own place, quadBounds (s.layout.contentQuads chrome.host chrome.node).head? = some own ∧
        Placed chrome s.layout chrome.host place ∧ box = own.shift place ∧
        clickPoint box = clickPoint own + place := by
  have h := inv hs
  refine ⟨h.inPhase.turns_le, fun box h_phase => ?_⟩
  obtain ⟨⟨own, sum, h_own, h_climbed, rfl⟩, -⟩ : Located chrome s.layout none box ∧
    s.turns ≤ s.known.length := h.at_phase h_phase
  -- The climb ended at the tab, so the sum is the place of the page.
  have h_placed := Placed.of_climbed h_climbed .tab
  have h_zero : sum + ((0, 0) : ℚ × ℚ) = sum := add_zero sum
  rw [h_zero] at h_placed
  refine ⟨own, sum, h_own, h_placed, rfl, Prod.ext ?_ ?_⟩
  · show own.x + sum.1 + own.width / 2 = own.x + own.width / 2 + sum.1
    ring
  · show own.y + sum.2 + own.height / 2 = own.y + own.height / 2 + sum.2
    ring

end

/-! ### A run -/

/-- The frame `B` is in the frame `A`, and the element is in `B`. -/
def sampleChrome : Chrome where
  session id := ⟨id, id, "iframe", "", if id = "B" then some "A" else none⟩
  sessionID_eq _ := rfl
  host := some "B"
  node := 7
  owner _ := 3

/-- Each frame is 100 to the right and 50 down in its parent. -/
def sampleLayout : Layout where
  contentQuads _ _ := [[5, 5, 15, 5, 15, 25, 5, 25]]
  boxModel _ _ := [100, 50, 300, 50, 300, 250, 100, 250]

/-- One turn of the loop in the sample. -/
def sampleTurn : List Event :=
  [.turn, .frameOwner 3, .scrolled sampleLayout,
    .boxModel (some [100, 50, 300, 50, 300, 250, 100, 250])]

/-- A run that climbs from a frame in a frame. -/
def sampleRun : List Event :=
  [.attachedToTarget none "A", .attachedToTarget (some "A") "B", .start, .searched none,
    .searched none, .searched (some 7), .quads [[5, 5, 15, 5, 15, 25, 5, 25]]] ++
    sampleTurn ++ sampleTurn ++ [.turn]

/-- Where it ends. -/
def sampleEnd : State := (machine sampleChrome sampleLayout).exec
  (machine sampleChrome sampleLayout).init sampleRun

/-- It returns the box. -/
theorem phase_sampleEnd : sampleEnd.phase = .returned (some ⟨205, 105, 10, 20⟩) := by
  decide +kernel

/-- The box of the element in its own page. -/
theorem quadBounds_own : quadBounds (some [5, 5, 15, 5, 15, 25, 5, 25]) = some ⟨5, 5, 10, 20⟩ := by
  decide +kernel

/-- The box of a frame in the page above. -/
theorem quadBounds_frame :
    quadBounds (some [100, 50, 300, 50, 300, 250, 100, 250]) = some ⟨100, 50, 200, 200⟩ := by
  decide +kernel

/-- The run is one of the machine. -/
theorem reachable_sampleEnd : (machine sampleChrome sampleLayout).Reachable sampleEnd := by
  refine ⟨sampleRun, ?_, rfl⟩
  have h_scrolled : ∀ page, Scrolled sampleChrome page sampleLayout sampleLayout :=
    fun _ _ _ => ⟨rfl, rfl⟩
  have h_A : sampleChrome.session "A" = ⟨"A", "A", "iframe", "", none⟩ := rfl
  have h_B : sampleChrome.session "B" = ⟨"B", "B", "iframe", "", some "A"⟩ := rfl
  simp [sampleRun, sampleTurn, machine, enabled, next, search, pages, Sessions.set, Sessions.get,
    Chrome.parent, quadBounds_own, quadBounds_frame, h_scrolled, h_A, h_B]
  exact ⟨⟨rfl, rfl⟩, rfl, rfl, rfl, rfl, rfl⟩

/-- The theorem for an element in a frame in a frame. -/
theorem locateProbe_correct_nested :
    ∃ own place, quadBounds (sampleEnd.layout.contentQuads sampleChrome.host
        sampleChrome.node).head? = some own ∧
      Placed sampleChrome sampleEnd.layout sampleChrome.host place ∧
      (⟨205, 105, 10, 20⟩ : Rect) = own.shift place ∧
      clickPoint ⟨205, 105, 10, 20⟩ = clickPoint own + place :=
  (locateProbe_correct reachable_sampleEnd).2 _ phase_sampleEnd

end BrowserControl.Extension.Probe
