import BrowserControl.Encoding.Bytes
import BrowserControl.Extension.TabRegistry
import BrowserControl.Order.Stepping
import Mathlib.Data.Rat.Floor
import Mathlib.Order.CompletePartialOrder
import Mathlib.Order.Interval.Set.Disjoint

/-!
# Screenshots in tiles

`DebuggerManager.screenshot` captures a part of the page that is larger than `maxTileDimension` in
tiles, in two nested loops: the outer one steps down the rows, the inner one along a row. Numbers
are rational and are not rounded.

`screenshot_tiles` is about what the loops capture: the tiles are a `Partition` of the part.
-/

namespace BrowserControl.Extension.ScreenshotTiles

open Encoding BrowserControl.Order.Stepping

/-! ### The source -/

/-- The part of a page that is captured. -/
structure CaptureClip where
  x : ℚ
  y : ℚ
  width : ℚ
  height : ℚ
  scale : ℚ
  deriving DecidableEq

/-- The option `clip`. -/
structure ClipOptions where
  x : Option ℚ := none
  y : Option ℚ := none
  width : Option ℚ := none
  height : Option ℚ := none
  scale : Option ℚ := none

/-- The options of a screenshot. -/
structure Options where
  fullPage : Bool := false
  format : Option String := none
  quality : Option ℚ := none
  clip : Option ClipOptions := none

/-- What `Page.getLayoutMetrics` tells. A viewport has a width and a height, the content also the
point where it begins. -/
structure Metrics where
  cssContentSize : Option (ℚ × ℚ × ℚ × ℚ) := none
  cssVisualViewport : Option (ℚ × ℚ) := none
  cssLayoutViewport : Option (ℚ × ℚ) := none

/-- The parameters of `Page.captureScreenshot`; `fromSurface` is always set. -/
structure CaptureParams where
  format : String
  quality : Option ℚ
  captureBeyondViewport : Bool
  clip : Option CaptureClip

/-- One tile, with the clip it was captured with. -/
structure Tile where
  data : String
  clip : CaptureClip
  pixels : Option (ℕ × ℕ)

/-- What `screenshot` returns. -/
inductive Shot where
  | tiles (tiles : List Tile) (mimeType : String) (width height : ℚ)
  | image (data mimeType : String) (size : Option (ℚ × ℚ)) (pixels : Option (ℕ × ℕ))

/-- The error for a clip that is no rectangle. -/
def invalidClip : RpcError where
  kind := "INVALID_REQUEST"
  message := "screenshot clip must have finite positive width, height, and scale"

/-- A clip that is asked for is checked. -/
def checkClip (clip : ClipOptions) : Except RpcError CaptureClip :=
  match clip.width, clip.height with
  | some width, some height =>
    let scale := clip.scale.getD 1
    if width ≤ 0 ∨ height ≤ 0 ∨ scale ≤ 0 then .error invalidClip
    else .ok ⟨clip.x.getD 0, clip.y.getD 0, width, height, scale⟩
  | _, _ => .error invalidClip

/-- The clip, if there is one, and the size of the viewport, if it has been asked for. -/
def clipOf (options : Options) (metrics : Except RpcError Metrics) :
    Except RpcError (Option CaptureClip × Option (ℚ × ℚ)) :=
  match options.clip with
  | some clip => do return (some (← checkClip clip), none)
  | none => do
    let metrics ← metrics
    let viewportSize := metrics.cssVisualViewport.or metrics.cssLayoutViewport
    match metrics.cssContentSize with
    | some (x, y, width, height) =>
      return (if options.fullPage then some ⟨x, y, width, height, 1⟩ else none, viewportSize)
    | none => return (none, viewportSize)

/-- Four bytes of which the highest comes first. -/
def readUint32 (binary : List UInt8) (offset : ℕ) : ℕ :=
  ((binary.drop offset).take 4).foldl (fun n b => n * 2 ^ 8 + b.toNat) 0

/-- `pngDimensions` -/
def pngDimensions (base64 : String) : Option (ℕ × ℕ) := do
  let binary ← Base64.atob (base64.toList.take 40)
  guard (24 ≤ binary.length ∧ (binary.drop 1).take 3 = [80, 78, 71])
  return (readUint32 binary 16, readUint32 binary 20)

/-- The longest side of a tile. -/
def maxTileDimension : {step : ℚ // 0 < step} := ⟨8000, by norm_num⟩

section

variable (options : Options) (capture : CaptureParams → Except RpcError String)

/-- The format that is asked for. -/
def Options.formatOrPng : String := options.format.getD "png"

/-- The quality, which PNG does not have. -/
def Options.captureQuality : Option ℚ :=
  if options.formatOrPng = "png" then none else some (options.quality.getD 90)

/-- The type of the image. -/
def Options.mimeType : String := "image/" ++ options.formatOrPng

/-- The size that a PNG states. -/
def Options.pixels (data : String) : Option (ℕ × ℕ) :=
  if options.formatOrPng = "png" then pngDimensions data else none

/-- The tile that begins at a point. -/
def tileClip (clip : CaptureClip) (x y : ℚ) : CaptureClip where
  x := x
  y := y
  width := min maxTileDimension (clip.x + clip.width - x)
  height := min maxTileDimension (clip.y + clip.height - y)
  scale := clip.scale

/-- One turn of the inner loop: a tile is captured and kept. -/
def captureTile (clip : CaptureClip) : Except RpcError Tile := do
  let data ← capture
    { format := options.formatOrPng
      quality := options.captureQuality
      captureBeyondViewport := true
      clip := some clip }
  return { data, clip, pixels := options.pixels data }

/-- The inner loop. -/
def captureRow (clip : CaptureClip) (tiles : List Tile) (y : ℚ) : Except RpcError (List Tile) :=
  loop maxTileDimension (clip.x + clip.width)
    (fun tiles x => do
      let tile ← captureTile options capture (tileClip clip x y)
      return tiles ++ [tile])
    tiles clip.x

/-- The outer loop. -/
def captureTiles (clip : CaptureClip) : Except RpcError (List Tile) :=
  loop maxTileDimension (clip.y + clip.height) (captureRow options capture clip) [] clip.y

/-- `screenshot` -/
def screenshot (metrics : Except RpcError Metrics) : Except RpcError Shot := do
  let (clip, viewportSize) ← clipOf options metrics
  match clip with
  | some clip =>
    -- Too large for one picture: the clip is cut into tiles.
    if clip.height > maxTileDimension ∨ clip.width > maxTileDimension then
      let tiles ← captureTiles options capture clip
      return .tiles tiles options.mimeType clip.width clip.height
    else
      let data ← capture
        { format := options.formatOrPng
          quality := options.captureQuality
          captureBeyondViewport := true
          clip := some clip }
      return .image data options.mimeType (some (clip.width, clip.height)) (options.pixels data)
  | none =>
    let data ← capture
      { format := options.formatOrPng
        quality := options.captureQuality
        -- The viewport alone, or Chrome's own full page.
        captureBeyondViewport := options.fullPage
        clip := none }
    return .image data options.mimeType viewportSize (options.pixels data)

end

/-! ### What the loops capture -/

/-- The points of a clip. Of its border it has the left and the upper side. -/
def CaptureClip.region (clip : CaptureClip) : Set (ℚ × ℚ) :=
  Set.Ico clip.x (clip.x + clip.width) ×ˢ Set.Ico clip.y (clip.y + clip.height)

/-- The tiles are a partition of the clip, from left to right and from top to bottom. -/
structure Partition (clip : CaptureClip) (tiles : List CaptureClip) : Prop where
  size : ∀ t ∈ tiles, (0 < t.width ∧ t.width ≤ maxTileDimension) ∧
    0 < t.height ∧ t.height ≤ maxTileDimension
  scale : ∀ t ∈ tiles, t.scale = clip.scale
  inside : ∀ t ∈ tiles, t.region ⊆ clip.region
  covers : ∀ p ∈ clip.region, ∃ t ∈ tiles, p ∈ t.region
  disjoint : tiles.Pairwise fun s t => Disjoint s.region t.region
  rowMajor : tiles.Pairwise fun s t => s.y < t.y ∨ s.y = t.y ∧ s.x < t.x

/-- The clips of a row. -/
def rowClips (clip : CaptureClip) (y : ℚ) : List CaptureClip :=
  (starts maxTileDimension clip.x (clip.x + clip.width)).map fun x => tileClip clip x y

/-- The clips of all rows. -/
def tileClips (clip : CaptureClip) : List CaptureClip :=
  (starts maxTileDimension clip.y (clip.y + clip.height)).flatMap (rowClips clip)

variable {clip : CaptureClip}

/-- Each clip is that of a row and a column. -/
theorem mem_tileClips {t : CaptureClip} : t ∈ tileClips clip ↔
    ∃ y ∈ starts maxTileDimension clip.y (clip.y + clip.height),
      ∃ x ∈ starts maxTileDimension clip.x (clip.x + clip.width), tileClip clip x y = t := by
  simp only [tileClips, rowClips, List.mem_flatMap, List.mem_map]

/-- A tile ends where its pieces of the two sides end. -/
theorem region_tileClip (x y : ℚ) : (tileClip clip x y).region =
    Set.Ico x (min (x + maxTileDimension) (clip.x + clip.width)) ×ˢ
      Set.Ico y (min (y + maxTileDimension) (clip.y + clip.height)) := by
  have h_end (v s e : ℚ) : v + min s (e - v) = min (v + s) e := by
    rw [← min_add_add_left, add_sub_cancel]
  show Set.Ico x (x + min _ (_ - x)) ×ˢ Set.Ico y (y + min _ (_ - y)) = _
  rw [h_end, h_end]

/-- Two tiles are in one row, one behind the other, or the row of one is below that of the other. -/
theorem pairwise_tileClips {R : CaptureClip → CaptureClip → Prop}
    (h_row : ∀ y x x' : ℚ, x + maxTileDimension ≤ x' → R (tileClip clip x y) (tileClip clip x' y))
    (h_rows : ∀ x y x' y' : ℚ, y + maxTileDimension ≤ y' →
      R (tileClip clip x y) (tileClip clip x' y')) :
    (tileClips clip).Pairwise R := by
  refine List.pairwise_flatMap.mpr ⟨fun y _ => ?_, ?_⟩
  · exact List.pairwise_map.mpr (pairwise_starts.imp fun h => h_row y _ _ h)
  · refine pairwise_starts.imp fun h s hs t ht => ?_
    obtain ⟨x, -, rfl⟩ := List.mem_map.mp hs
    obtain ⟨x', -, rfl⟩ := List.mem_map.mp ht
    exact h_rows x _ x' _ h

/-- A piece that ends before another one begins does not meet it. -/
theorem disjoint_pieces {a b a' b' : ℚ} (h : a + maxTileDimension ≤ a') :
    Disjoint (Set.Ico a (min (a + maxTileDimension) b))
      (Set.Ico a' (min (a' + maxTileDimension) b')) := by
  rw [Set.Ico_disjoint_Ico]
  calc min (min (a + maxTileDimension) b) (min (a' + maxTileDimension) b')
    _ ≤ a + maxTileDimension := (min_le_left ..).trans (min_le_left ..)
    _ ≤ a' := h
    _ ≤ max a a' := le_max_right ..

/-- The clips are a partition of the rectangle. -/
theorem partition_tileClips (clip : CaptureClip) : Partition clip (tileClips clip) where
  -- a tile begins inside the clip and is cut at its edge
  size t ht := by
    obtain ⟨y, hy, x, hx, rfl⟩ := mem_tileClips.mp ht
    have h_pos := maxTileDimension.2
    refine ⟨⟨lt_min h_pos ?_, min_le_left ..⟩, lt_min h_pos ?_, min_le_left ..⟩
    · exact sub_pos.mpr (mem_starts hx).2
    · exact sub_pos.mpr (mem_starts hy).2
  scale t ht := by
    obtain ⟨y, -, x, -, rfl⟩ := mem_tileClips.mp ht
    rfl
  inside t ht := by
    obtain ⟨y, hy, x, hx, rfl⟩ := mem_tileClips.mp ht
    rw [region_tileClip]
    intro p hp
    exact ⟨mem_Ico_iff_starts.mpr ⟨x, hx, hp.1⟩, mem_Ico_iff_starts.mpr ⟨y, hy, hp.2⟩⟩
  -- column and row of the point
  covers p hp := by
    obtain ⟨x, hx, hpx⟩ := mem_Ico_iff_starts.mp hp.1
    obtain ⟨y, hy, hpy⟩ := mem_Ico_iff_starts.mp hp.2
    refine ⟨tileClip clip x y, mem_tileClips.mpr ⟨y, hy, x, hx, rfl⟩, ?_⟩
    rw [region_tileClip]
    exact ⟨hpx, hpy⟩
  -- tiles of one row, and of two
  disjoint := by
    refine pairwise_tileClips ?_ ?_
    · intro y x x' h
      rw [region_tileClip, region_tileClip, Set.disjoint_prod]
      exact .inl (disjoint_pieces h)
    · intro x y x' y' h
      rw [region_tileClip, region_tileClip, Set.disjoint_prod]
      exact .inr (disjoint_pieces h)
  rowMajor := by
    have h_lt {v v' : ℚ} (h : v + maxTileDimension ≤ v') : v < v' :=
      (lt_add_of_pos_right v maxTileDimension.2).trans_le h
    exact pairwise_tileClips (fun y x x' h => .inr ⟨rfl, h_lt h⟩) fun x y x' y' h => .inl (h_lt h)

section

variable (options : Options) (capture : CaptureParams → Except RpcError String)

/-- A loop that adds what it captures. -/
theorem foldlM_append {α β : Type} (f : α → Except RpcError β) (acc : List β) (l : List α) :
    l.foldlM (fun acc a => do
      let b ← f a
      return acc ++ [b]) acc = (l.mapM f).map (acc ++ ·) := by
  induction l generalizing acc with
  | nil =>
    show Except.ok acc = Except.ok (acc ++ [])
    rw [List.append_nil]
  | cons a l ih =>
    rw [List.foldlM_cons, List.mapM_cons]
    cases f a with
    | error e => rfl
    -- one more result, and the rest behind it
    | ok b =>
      refine (ih (acc ++ [b])).trans ?_
      show (l.mapM f).map (acc ++ [b] ++ ·) = _
      cases l.mapM f with
      | error e => rfl
      | ok bs =>
        show Except.ok (acc ++ [b] ++ bs) = Except.ok (acc ++ b :: bs)
        rw [List.append_assoc]
        rfl

/-- A row is captured tile by tile. -/
theorem captureRow_eq (tiles : List Tile) (y : ℚ) : captureRow options capture clip tiles y =
    ((rowClips clip y).mapM (captureTile options capture)).map (tiles ++ ·) := by
  rw [captureRow, loop_eq_foldlM, foldlM_append, rowClips, List.mapM_map]
  rfl

/-- The two loops capture the tiles one after the other. -/
theorem captureTiles_eq (clip : CaptureClip) :
    captureTiles options capture clip = (tileClips clip).mapM (captureTile options capture) := by
  rw [captureTiles, loop_eq_foldlM, tileClips]
  generalize starts maxTileDimension clip.y (clip.y + clip.height) = rows
  -- row after row, each with the tiles so far
  have h_rows (tiles : List Tile) : rows.foldlM (captureRow options capture clip) tiles =
      ((rows.flatMap (rowClips clip)).mapM (captureTile options capture)).map (tiles ++ ·) := by
    induction rows generalizing tiles with
    | nil =>
      show Except.ok tiles = Except.ok (tiles ++ [])
      rw [List.append_nil]
    | cons y rows ih =>
      rw [List.foldlM_cons, List.flatMap_cons, List.mapM_append, captureRow_eq]
      cases (rowClips clip y).mapM (captureTile options capture) with
      | error e => rfl
      | ok row =>
        refine (ih (tiles ++ row)).trans ?_
        cases (rows.flatMap (rowClips clip)).mapM (captureTile options capture) with
        | error e => rfl
        | ok rest =>
          show Except.ok (tiles ++ row ++ rest) = Except.ok (tiles ++ (row ++ rest))
          rw [List.append_assoc]
  rw [h_rows []]
  cases (rows.flatMap (rowClips clip)).mapM (captureTile options capture) with
  | error e => rfl
  | ok tiles => rfl

/-- A tile is what Chrome captures of its own clip. -/
theorem captureTile_ok {tile : Tile} (h : captureTile options capture clip = .ok tile) :
    tile.clip = clip ∧
      capture ⟨options.formatOrPng, options.captureQuality, true, some clip⟩ = .ok tile.data := by
  rw [captureTile] at h
  cases h_data : capture ⟨options.formatOrPng, options.captureQuality, true, some clip⟩ with
  | error e =>
    rw [h_data] at h
    cases h
  | ok data =>
    rw [h_data] at h
    obtain rfl := Except.ok.inj h
    exact ⟨rfl, rfl⟩

/-- One tile is captured of each clip, in their order. -/
theorem mapM_captureTile_ok {clips : List CaptureClip} {tiles : List Tile}
    (h : clips.mapM (captureTile options capture) = .ok tiles) :
    tiles.map (·.clip) = clips ∧ ∀ tile ∈ tiles,
      capture ⟨options.formatOrPng, options.captureQuality, true, some tile.clip⟩ =
        .ok tile.data := by
  induction clips generalizing tiles with
  | nil =>
    obtain rfl := Except.ok.inj h
    exact ⟨rfl, fun _ h_mem => absurd h_mem List.not_mem_nil⟩
  | cons clip clips ih =>
    rw [List.mapM_cons] at h
    -- the first tile that fails ends the loop
    cases h_tile : captureTile options capture clip with
    | error e =>
      rw [h_tile] at h
      cases h
    | ok tile =>
      rw [h_tile] at h
      cases h_rest : clips.mapM (captureTile options capture) with
      | error e =>
        rw [h_rest] at h
        cases h
      | ok rest =>
        rw [h_rest] at h
        obtain rfl := Except.ok.inj h
        obtain ⟨h_clip, h_data⟩ := captureTile_ok options capture h_tile
        obtain ⟨h_clips, h_all⟩ := ih h_rest
        refine ⟨congrArg₂ List.cons h_clip h_clips, List.forall_mem_cons.mpr ⟨?_, h_all⟩⟩
        rw [h_clip]
        exact h_data

/-- Nothing fails but a capture. -/
theorem mapM_captureTile_of_captured {clips : List CaptureClip}
    (h : ∀ clip ∈ clips, ∃ data,
      capture ⟨options.formatOrPng, options.captureQuality, true, some clip⟩ = .ok data) :
    ∃ tiles, clips.mapM (captureTile options capture) = .ok tiles := by
  induction clips with
  | nil => exact ⟨[], rfl⟩
  | cons clip clips ih =>
    obtain ⟨⟨data, h_data⟩, h_rest⟩ := List.forall_mem_cons.mp h
    obtain ⟨tiles, h_tiles⟩ := ih h_rest
    refine ⟨⟨data, clip, options.pixels data⟩ :: tiles, ?_⟩
    rw [List.mapM_cons, captureTile, h_data, h_tiles]
    rfl

/-- **The tiles of a screenshot are a partition of its clip**, however many there are: if a side of
the clip is longer than a tile may be, then the clips that are captured are a partition of it, and
the screenshot consists of their tiles, or fails because one of them cannot be captured. The clips
of the tiles it consists of are those of the partition, in their order, and the image of a tile is
what Chrome has captured of the tile's clip. -/
theorem screenshot_tiles {metrics : Except RpcError Metrics} {clip : CaptureClip}
    {viewportSize : Option (ℚ × ℚ)}
    (h_clip : clipOf options metrics = .ok (some clip, viewportSize))
    (h_pos : 0 < clip.width ∧ 0 < clip.height)
    (h_large : 8000 < clip.width ∨ 8000 < clip.height) :
    ∃ clips, clips ≠ [] ∧ Partition clip clips ∧
      screenshot options capture metrics = (do
        let tiles ← clips.mapM (captureTile options capture)
        return .tiles tiles options.mimeType clip.width clip.height) ∧
      (∀ shot, screenshot options capture metrics = .ok shot →
        ∃ tiles, shot = .tiles tiles options.mimeType clip.width clip.height ∧
          tiles.map (·.clip) = clips ∧ ∀ tile ∈ tiles,
            capture ⟨options.formatOrPng, options.captureQuality, true, some tile.clip⟩ =
              .ok tile.data) ∧
      ((∀ clip ∈ clips, ∃ data,
          capture ⟨options.formatOrPng, options.captureQuality, true, some clip⟩ = .ok data) →
        ∃ shot, screenshot options capture metrics = .ok shot) := by
  -- a clip that is too large is taken tile by tile
  have h_screenshot : screenshot options capture metrics = (do
      let tiles ← (tileClips clip).mapM (captureTile options capture)
      return .tiles tiles options.mimeType clip.width clip.height) := by
    have h_tiles : clip.height > maxTileDimension ∨ clip.width > maxTileDimension := h_large.symm
    rw [screenshot, h_clip]
    show (if _ then _ else _) = _
    rw [if_pos h_tiles, captureTiles_eq]
  refine ⟨tileClips clip, ?_, partition_tileClips clip, h_screenshot, fun shot h_shot => ?_,
    fun h_captured => ?_⟩
  · -- The corner of the clip is on one of the tiles.
    have h_corner : (clip.x, clip.y) ∈ clip.region :=
      ⟨⟨le_rfl, lt_add_of_pos_right _ h_pos.1⟩, le_rfl, lt_add_of_pos_right _ h_pos.2⟩
    obtain ⟨t, ht, -⟩ := (partition_tileClips clip).covers _ h_corner
    exact List.ne_nil_of_mem ht
  -- a shot that succeeds has all tiles
  · rw [h_screenshot] at h_shot
    cases h_tiles : (tileClips clip).mapM (captureTile options capture) with
    | error e =>
      rw [h_tiles] at h_shot
      cases h_shot
    | ok tiles =>
      rw [h_tiles] at h_shot
      exact ⟨tiles, (Except.ok.inj h_shot).symm, mapM_captureTile_ok options capture h_tiles⟩
  · obtain ⟨tiles, h_tiles⟩ := mapM_captureTile_of_captured options capture h_captured
    rw [h_screenshot, h_tiles]
    exact ⟨_, rfl⟩

end

/-- A part of two columns and two rows, which begins above the page. -/
def fourTiles : Options where
  clip := some
    { x := some (-1 / 2)
      y := some (-3)
      width := some 8001
      height := some 16000
      scale := some 2 }

/-- It is captured in tiles. -/
theorem screenshot_tiles_four :
    ∃ clips, Partition ⟨-1 / 2, -3, 8001, 16000, 2⟩ clips ∧
      ∃ tiles, screenshot fourTiles (fun _ => .ok "") (.ok {}) =
          .ok (.tiles tiles fourTiles.mimeType 8001 16000) ∧
        tiles.map (·.clip) = clips := by
  have h_clip : clipOf fourTiles (.ok {}) = .ok (some ⟨-1 / 2, -3, 8001, 16000, 2⟩, none) := rfl
  obtain ⟨clips, -, h_partition, -, h_ok, h_captured⟩ :=
    screenshot_tiles fourTiles (fun _ => .ok "") h_clip ⟨by norm_num, by norm_num⟩
      (.inl (by norm_num))
  obtain ⟨shot, h_shot⟩ := h_captured fun _ _ => ⟨"", rfl⟩
  obtain ⟨tiles, rfl, h_clips, -⟩ := h_ok shot h_shot
  exact ⟨clips, h_partition, tiles, h_shot, h_clips⟩

end BrowserControl.Extension.ScreenshotTiles
