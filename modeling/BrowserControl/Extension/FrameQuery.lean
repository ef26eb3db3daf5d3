import BrowserControl.Extension.TabRegistry
import BrowserControl.LocatorRuntime.AiDom
import BrowserControl.LocatorRuntime.DocumentOrder

/-!
# Queries in the frames of a tab

`#query` asks the runtimes of several frames for the elements that a locator matches: of the frames
that a snapshot has, of those that the frame path leads to, or of all. `#prepareTarget` needs
exactly one answer.

An index is part of the locator that every frame is asked with, so each of them answers with an
element of its own. The answers are one at most if and only if no two of the frames have as many
elements as the index asks for (`selectsGlobally_iff`).

The frames stand still while they are queried. `#snapshot` and `#executeRuntime` are here as far as
queries need them.
-/

namespace BrowserControl.Extension.FrameQuery

open LocatorRuntime

/-! ### Frames -/

/-- The elements of a document, each once. -/
structure Document where
  root : List Element
  distinct : Distinct root

/-- A frame that hosts the runtime. -/
structure Host where
  frameID : ℕ
  url : String
  document : Document
  /-- The references of elements in the captures that the runtime remembers. -/
  snapshots : List (String × List (ℕ × String)) := []

/-- A frame as `chrome.webNavigation` and the runtime show it. -/
structure Frame where
  frameID : ℕ
  parentFrameID : Option ℕ
  url : String
  /-- The document and the captures, if the frame can host the runtime. -/
  runtime : Option (Document × List (String × List (ℕ × String)))

/-- A snapshot of the extension: its frames, with the captures of their runtimes. -/
structure Snapshot where
  tabID : String
  documentEpoch : ℕ
  frames : List (ℕ × String)

/-- A tab with its frames. -/
structure Tab where
  tabID : String
  documentEpoch : ℕ
  frames : List Frame
  /-- The snapshots that the extension remembers. -/
  snapshots : List (String × Snapshot) := []

/-- What the browser does. -/
structure Chrome where
  browser : Browser
  /-- `new URL(src, base).href`; `none` if it throws. -/
  newURL : String → String → Option String
  /-- How an injection into a frame that is not there is rejected. -/
  noFrame : ℕ → String
  /-- Why an element is not actionable. -/
  notActionable : Element → Option String

/-- `{ ...locator, framePath: undefined }` -/
def targetLocator : Locator → Locator
  | .mk base _ scope has and or => .mk base [] scope has and or

/-- A frame cannot be reached. -/
def frameUnavailable (message : String) : RpcError :=
  { kind := "FRAME_UNAVAILABLE", message, retryable := true }

section

variable (P : Chrome)

/-- The runtime of a frame, if there is one after an attempt to install it. -/
def Frame.host (frame : Frame) : Except RpcError Host :=
  match frame.runtime with
  | some (document, snapshots) =>
    .ok { frameID := frame.frameID, url := frame.url, document, snapshots }
  | none => .error (frameUnavailable "locator runtime is not installed")

/-- The frame that `#invokeFrame` finds. -/
def invokeFrame (tab : Tab) (frameID : ℕ) : Except RpcError Host :=
  match tab.frames.find? (·.frameID = frameID) with
  | some frame => frame.host
  | none => .error (frameUnavailable (P.noFrame frameID))

/-- `query`, as a runtime answers it. -/
def Host.query (host : Host) (locator : Locator) (snapshotID : Option String) :
    List NodeDescription :=
  let refs := (snapshotID.bind (host.snapshots.lookup ·)).getD []
  (queryLocator P.browser locator host.document.root).mapIdx fun index e =>
    describe P.browser e ((refs.lookup e.id).getD ("q" ++ Nat.repr (index + 1)))

/-! ### `#resolveFramePath` -/

/-- The frames that have this one as parent. -/
def children (tab : Tab) (frameID : ℕ) : List Frame :=
  tab.frames.filter (·.parentFrameID = some frameID)

/-- The child frames that a node can stand for. -/
def candidates (children : List Frame) (parentURL : String) (node : NodeDescription) : List Frame :=
  match (node.attributes.lookup "src").getD "" with
  | "" => children
  | src =>
    match P.newURL src parentURL with
    | some expected => children.filter (·.url = expected)
    | none => []

/-- `next.add(frameId)` -/
def addFrame (next : List ℕ) (frameID : ℕ) : List ℕ :=
  if frameID ∈ next then next else next ++ [frameID]

/-- One description in the loop of `#resolveFramePath`: its frame, if it means just one. -/
def followNode (children : List Frame) (parentURL : String) (next : List ℕ)
    (node : NodeDescription) : List ℕ :=
  match candidates P children parentURL node with
  | [child] => addFrame next child.frameID
  | _ => next

/-- What a component of the path adds for one parent. -/
def followParent (tab : Tab) (component : Locator) (next : List ℕ) (parentFrameID : ℕ) :
    Except RpcError (List ℕ) := do
  let host ← invokeFrame P tab parentFrameID
  let nodes := host.query P (targetLocator component) none
  let followed := nodes.foldl (followNode P (children tab parentFrameID) host.url) next
  return match nodes, children tab parentFrameID with
    | [_], [child] =>
      if followed.length = next.length then addFrame followed child.frameID else followed
    | _, _ => followed

/-- One component of the path, in all frames that were reached. -/
def followComponent (tab : Tab) (parents : List ℕ) (component : Locator) :
    Except RpcError (List ℕ) := do
  let next ← parents.foldlM (followParent P tab component) []
  if next = [] then
    .error (frameUnavailable "framePath did not resolve to an available child frame")
  else return next

/-- `#resolveFramePath`, from the main frame on. -/
def resolveFramePath (tab : Tab) (path : List Locator) : Except RpcError (List ℕ) :=
  path.foldlM (followComponent P tab) [0]

/-! ### `#query` -/

/-- `#snapshot` -/
def findSnapshot (tab : Tab) (snapshotID : String) : Except RpcError Snapshot :=
  match tab.snapshots.lookup snapshotID with
  | some snapshot =>
    if snapshot.tabID ≠ tab.tabID ∨ snapshot.documentEpoch ≠ tab.documentEpoch then
      .error {
        kind := "STALE_REFERENCE"
        message := "snapshot does not belong to the current document"
        retryable := true }
    else .ok snapshot
  | none =>
    .error {
      kind := "STALE_REFERENCE"
      message := "snapshot does not belong to the current document"
      retryable := true }

/-- The frames that the frame path leads to, if there is one. -/
def pathFrames (tab : Tab) (locator : Locator) : Except RpcError (Option (List ℕ)) :=
  if locator.framePath.isEmpty then .ok none
  else some <$> resolveFramePath P tab locator.framePath

/-- The frames that are queried, each with the capture that it is queried for. All of them have to
host the runtime, unless all frames of the tab are queried. -/
def queriedHosts (tab : Tab) (locator : Locator) (snapshotID : Option String) :
    Except RpcError (List (Host × Option String)) := do
  let frameIDs ← pathFrames P tab locator
  match snapshotID.filter (· ≠ "") with
  | some snapshotID =>
    let snapshot ← findSnapshot tab snapshotID
    (snapshot.frames.filter fun frame => frameIDs.all (frame.1 ∈ ·)).mapM fun frame => do
      return (← invokeFrame P tab frame.1, some frame.2)
  | none =>
    match frameIDs with
    | some frameIDs => frameIDs.mapM fun frameID => do return (← invokeFrame P tab frameID, none)
    | none => return tab.frames.filterMap fun frame => frame.host.toOption.map (·, none)

/-- The answer of a frame, with its number. -/
def answer (locator : Locator) (queried : Host × Option String) : List (NodeDescription × ℕ) :=
  (queried.1.query P (targetLocator locator) queried.2).map fun node =>
    (publishedNode queried.1.frameID node, queried.1.frameID)

/-- `#query`: the answers of the frames, in the order in which they are asked. -/
def query (tab : Tab) (locator : Locator) (snapshotID : Option String) :
    Except RpcError (List (NodeDescription × ℕ)) := do
  return (← queriedHosts P tab locator snapshotID).flatMap (answer P locator)

/-! ### `#prepareTarget` -/

/-- `prepare`, as a runtime answers it. -/
def Host.prepare (host : Host) (locator : Locator) : Except RpcError NodeDescription :=
  match queryLocator P.browser locator host.document.root with
  | [] =>
    .error { kind := "LOCATOR_NOT_FOUND", message := "no matching element", retryable := true }
  -- One match must be actionable too; several are ambiguous.
  | [e] =>
    match P.notActionable e with
    | some reasons => .error { kind := "NOT_ACTIONABLE", message := reasons, retryable := true }
    | none => .ok (describe P.browser e "q1")
  | es =>
    .error {
      kind := "LOCATOR_AMBIGUOUS"
      message := Nat.repr es.length ++ " matching elements"
      retryable := true }

/-- `#prepareTarget`, for a locator. -/
def prepareTarget (tab : Tab) (locator : Locator) (snapshotID : Option String) :
    Except RpcError (ℕ × NodeDescription) := do
  match ← query P tab locator snapshotID with
  | [] => .error { kind := "LOCATOR_NOT_FOUND", message := "no matching element" }
  | [found] =>
    let host ← invokeFrame P tab found.2
    return (found.2, ← host.prepare P (targetLocator locator))
  | found =>
    .error {
      kind := "LOCATOR_AMBIGUOUS"
      message := Nat.repr found.length ++ " matching elements" }

end

/-! ### One answer -/

/-- The locator with its index matches an element of the frame. -/
def hasMatch (P : Chrome) (locator : Locator) (queried : Host × Option String) : Bool :=
  (collectElements queried.1.document.root true).any fun e =>
    (rank P.browser (targetLocator locator) queried.1.document.root e).isSome

/-- **An index selects one element of the tab**: there is one answer at most, and the target is
never ambiguous. -/
structure SelectsGlobally (P : Chrome) (tab : Tab) (locator : Locator)
    (snapshotID : Option String) :
    Prop where
  atMostOne : ∀ found, query P tab locator snapshotID = .ok found → found.length ≤ 1
  unambiguous : ∀ e, prepareTarget P tab locator snapshotID = .error e →
    e.kind ≠ "LOCATOR_AMBIGUOUS"

/-- No two of the frames that are queried have a match. -/
def OneFrame (P : Chrome) (tab : Tab) (locator : Locator) (snapshotID : Option String) : Prop :=
  ∀ hosts, queriedHosts P tab locator snapshotID = .ok hosts →
    (hosts.filter (hasMatch P locator)).length ≤ 1

/-! ### Errors -/

/-- Whatever error there is has the property. -/
def Fails {α : Type} (Q : RpcError → Prop) (x : Except RpcError α) : Prop := ∀ e, x = .error e → Q e

section

variable {α β : Type} {Q : RpcError → Prop}

/-- What succeeds does not fail. -/
theorem fails_ok (a : α) : Fails Q (.ok a : Except RpcError α) := by
  intro e h
  contradiction

/-- A failure is of the kind it is of. -/
theorem fails_error {e : RpcError} (h : Q e) : Fails Q (.error e : Except RpcError α) := by
  rintro e' ⟨⟩
  exact h

/-- One step after the other. -/
theorem fails_bind {x : Except RpcError α} {f : α → Except RpcError β} (hx : Fails Q x)
    (hf : ∀ a, x = .ok a → Fails Q (f a)) : Fails Q (x >>= f) := by
  cases x with
  | error e => exact fails_error (hx e rfl)
  | ok a => exact hf a rfl

/-- The same step for all of a list. -/
theorem fails_mapM {f : α → Except RpcError β} (hf : ∀ a, Fails Q (f a)) (l : List α) :
    Fails Q (l.mapM f) := by
  induction l with
  | nil => exact fails_ok _
  | cons a l ih =>
    rw [List.mapM_cons]
    exact fails_bind (hf a) fun b _ => fails_bind ih fun bs _ => fails_ok _

/-- The same step along a list. -/
theorem fails_foldlM {f : β → α → Except RpcError β} (hf : ∀ b a, Fails Q (f b a)) (b : β)
    (l : List α) : Fails Q (l.foldlM f b) := by
  induction l generalizing b with
  | nil => exact fails_ok _
  | cons a l ih =>
    rw [List.foldlM_cons]
    exact fails_bind (hf b a) fun b' _ => ih b'

end

section

variable {P : Chrome} {tab : Tab} {locator : Locator} {snapshotID : Option String}

/-- A frame that cannot host the runtime is unavailable. -/
theorem fails_invokeFrame (frameID : ℕ) :
    Fails (·.kind = "FRAME_UNAVAILABLE") (invokeFrame P tab frameID) := by
  unfold invokeFrame
  split
  case h_1 frame _ =>
    unfold Frame.host
    split
    · exact fails_ok _
    · exact fails_error rfl
  case h_2 => exact fails_error rfl

/-- A component fails with `FRAME_UNAVAILABLE` only. -/
theorem fails_followComponent (parents : List ℕ) (component : Locator) :
    Fails (·.kind = "FRAME_UNAVAILABLE") (followComponent P tab parents component) := by
  refine fails_bind (fails_foldlM (fun next parentFrameID => ?_) _ _) fun next _ => ?_
  · exact fails_bind (fails_invokeFrame parentFrameID) fun host _ => fails_ok _
  · split
    · exact fails_error rfl
    · exact fails_ok _

/-- So does a path. -/
theorem fails_resolveFramePath (path : List Locator) :
    Fails (·.kind = "FRAME_UNAVAILABLE") (resolveFramePath P tab path) :=
  fails_foldlM fails_followComponent _ _

/-- A query fails because of a frame or a snapshot. -/
theorem fails_query :
    Fails (fun e => e.kind = "FRAME_UNAVAILABLE" ∨ e.kind = "STALE_REFERENCE")
      (query P tab locator snapshotID) := by
  -- the question to a single frame
  have h_frame : ∀ frameID,
      Fails (fun e => e.kind = "FRAME_UNAVAILABLE" ∨ e.kind = "STALE_REFERENCE")
      (invokeFrame P tab frameID) := fun frameID e he => .inl (fails_invokeFrame frameID e he)
  refine fails_bind (fails_bind ?_ fun frameIDs _ => ?_) fun hosts _ => fails_ok _
  -- the way to the frames of the path
  · unfold pathFrames
    split
    · exact fails_ok _
    · intro e he
      refine .inl (@fails_resolveFramePath P tab locator.framePath e ?_)
      cases h_path : resolveFramePath P tab locator.framePath with
      | error e' =>
        rw [h_path] at he
        cases he
        rfl
      | ok frameIDs =>
        rw [h_path] at he
        contradiction
  -- the frame of a node reference, else all frames
  · split
    · refine fails_bind ?_ fun snapshot _ => ?_
      · unfold findSnapshot
        split
        · split
          · exact fails_error (.inr rfl)
          · exact fails_ok _
        · exact fails_error (.inr rfl)
      · exact fails_mapM (fun (frame : ℕ × String) => fails_bind (h_frame frame.1) fun host _ =>
          fails_ok _) _
    · split
      · exact fails_mapM (fun frameID => fails_bind (h_frame frameID) fun host _ => fails_ok _) _
      · exact fails_ok _

end

/-! ### The answers of the frames -/

section

variable {P : Chrome} {tab : Tab} {locator : Locator} {snapshotID : Option String}

/-- With an index, a runtime answers with one element at most. -/
theorem length_queryLocator_le {browser : Browser} {l : Locator} {i : ℤ}
    (h : l.base.selectedIndex = some i) (root : List Element) :
    (queryLocator browser l root).length ≤ 1 := by
  obtain ⟨base, framePath, scope, has, and, or⟩ := l
  have h_index : base.selectedIndex = some i := h
  rw [queryLocator_mk, h_index]
  exact Option.length_toList_le

/-- The locator for the last frame is the same but for its path. -/
theorem base_targetLocator (l : Locator) : (targetLocator l).base = l.base := by
  cases l
  rfl

/-- A frame that is asked for the match of one index gives at most one. -/
theorem length_answer {i : ℤ} (h : locator.base.selectedIndex = some i)
    (queried : Host × Option String) :
    (answer P locator queried).length = if hasMatch P locator queried then 1 else 0 := by
  -- With an index there is at most one element in a frame.
  have h_le : (queryLocator P.browser (targetLocator locator) queried.1.document.root).length ≤ 1 :=
    length_queryLocator_le ((congrArg Base.selectedIndex (base_targetLocator locator)).trans h) _
  have h_answers := @answers P.browser (targetLocator locator) _ queried.1.document.distinct
  have h_match : hasMatch P locator queried = true ↔
      queryLocator P.browser (targetLocator locator) queried.1.document.root ≠ [] := by
    rw [hasMatch, List.any_eq_true, ne_eq, List.eq_nil_iff_forall_not_mem, not_forall_not]
    refine exists_congr fun e => ?_
    rw [h_answers.mem, mem_ranked]
  rw [answer, Host.query, List.length_map, List.length_mapIdx]
  by_cases h_nil : queryLocator P.browser (targetLocator locator) queried.1.document.root = []
  · rw [if_neg (fun h => h_match.mp h h_nil), h_nil]
    rfl
  · rw [if_pos (h_match.mpr h_nil)]
    have h_pos := List.length_pos_iff.mpr h_nil
    omega

/-- There are as many answers as frames with a match. -/
theorem length_query {i : ℤ} (h : locator.base.selectedIndex = some i)
    (hosts : List (Host × Option String)) :
    (hosts.flatMap (answer P locator)).length = (hosts.filter (hasMatch P locator)).length := by
  induction hosts with
  | nil => rfl
  | cons host hosts ih =>
    rw [List.flatMap_cons, List.length_append, length_answer h, List.filter_cons, ih]
    split
    · rw [List.length_cons]
      omega
    · exact Nat.zero_add _

/-- What an answer is made of. -/
theorem query_eq_ok_iff {found : List (NodeDescription × ℕ)} :
    query P tab locator snapshotID = .ok found ↔
      ∃ hosts, queriedHosts P tab locator snapshotID = .ok hosts ∧
        found = hosts.flatMap (answer P locator) := by
  unfold query
  cases queriedHosts P tab locator snapshotID with
  | error e =>
    refine iff_of_false (fun h => by contradiction) ?_
    rintro ⟨hosts, h, -⟩
    contradiction
  -- The hosts are given, and the answers of all of them are joined.
  | ok hosts =>
    constructor
    · intro h
      exact ⟨hosts, rfl, (Except.ok.inj h).symm⟩
    · rintro ⟨hosts', h_hosts, rfl⟩
      rw [Except.ok.inj h_hosts]
      rfl

/-- With an index, a runtime that is asked again finds no two elements either. -/
theorem fails_prepare {i : ℤ} (h : locator.base.selectedIndex = some i) (host : Host) :
    Fails (·.kind ≠ "LOCATOR_AMBIGUOUS") (host.prepare P (targetLocator locator)) := by
  have h_le := @length_queryLocator_le P.browser _ _
    ((congrArg Base.selectedIndex (base_targetLocator locator)).trans h) host.document.root
  unfold Host.prepare
  split
  case h_1 => exact fails_error (by decide)
  case h_2 =>
    have h_kind : "NOT_ACTIONABLE" ≠ "LOCATOR_AMBIGUOUS" := by decide
    split
    · exact fails_error h_kind
    · exact fails_ok _
  case h_3 h_nil h_one =>
    -- There is one element at most.
    exfalso
    rcases h_es : queryLocator P.browser (targetLocator locator) host.document.root with
      _ | ⟨e, _ | ⟨e', es⟩⟩
    · exact h_nil h_es
    · exact h_one e h_es
    · rw [h_es, List.length_cons, List.length_cons] at h_le
      omega

/-- **When an index selects one element of the tab**: if and only if no two of the frames that are
queried have as many elements as it asks for. -/
theorem selectsGlobally_iff {i : ℤ} (h : locator.base.selectedIndex = some i) :
    SelectsGlobally P tab locator snapshotID ↔ OneFrame P tab locator snapshotID := by
  constructor
  -- two matched frames would give two elements
  · intro h_selects hosts h_hosts
    rw [← length_query h]
    exact h_selects.atMostOne _ (query_eq_ok_iff.mpr ⟨hosts, h_hosts, rfl⟩)
  -- with one host at most the index is taken once
  · intro h_one
    have h_le : ∀ found, query P tab locator snapshotID = .ok found → found.length ≤ 1 := by
      intro found h_found
      obtain ⟨hosts, h_hosts, rfl⟩ := query_eq_ok_iff.mp h_found
      rw [length_query h]
      exact h_one hosts h_hosts
    refine ⟨h_le, fails_bind (fun e he => ?_) fun found h_found => ?_⟩
    · rcases fails_query e he with h_kind | h_kind
      · rw [h_kind]
        decide
      · rw [h_kind]
        decide
    · have h_length := h_le found h_found
      split
      case h_1 => exact fails_error (by decide)
      case h_2 found =>
        refine fails_bind (fun e he => ?_) fun host _ => ?_
        · rw [fails_invokeFrame _ e he]
          decide
        · exact fails_bind (fails_prepare h host) fun node _ => fails_ok _
      case h_3 h_nil h_one =>
        exfalso
        rcases found with _ | ⟨node, _ | ⟨node', found⟩⟩
        · exact h_nil rfl
        · exact h_one node rfl
        · rw [List.length_cons, List.length_cons] at h_length
          omega

end

/-! ### Two frames -/

/-- A page with one element that a selector matches. -/
def page (name : String) : Document := ⟨[named 0 name], by simp [Distinct, named, collectElements,
  Element.inside]⟩

/-- A tab with a frame in it. -/
def twoFrames (name name' : String) : Tab where
  tabID := "tab_1"
  documentEpoch := 1
  frames := [⟨0, none, "https://a.test/", some (page name, [])⟩,
    ⟨1, some 0, "https://b.test/", some (page name', [])⟩]

/-- A browser that finds every element actionable. -/
def chrome : Chrome := ⟨plain, fun src _ => some src, fun _ => "no frame", fun _ => none⟩

/-- The locator of the first element with this name. -/
def firstOf (name : String) : Locator :=
  .mk { kind := .css, value := some name, first := true } [] none none none none

/-- Only one of the frames has a match. -/
theorem selectsGlobally_iff_twoFrames :
    SelectsGlobally chrome (twoFrames "a" "b") (firstOf "b") none := by
  refine (selectsGlobally_iff (i := 0) rfl).mpr fun hosts h_hosts => ?_
  obtain rfl := Except.ok.inj h_hosts
  decide

/-- Each of the frames has a first element. -/
theorem not_selectsGlobally_first :
    ¬ ∀ (P : Chrome) (tab : Tab) (locator : Locator) (snapshotID : Option String),
      locator.base.selectedIndex ≠ none → SelectsGlobally P tab locator snapshotID := by
  intro h
  have h_selects := h chrome (twoFrames "a" "a") (firstOf "a") none (by decide)
  have h_length := h_selects.atMostOne _ rfl
  exact absurd h_length (by decide)

end BrowserControl.Extension.FrameQuery
