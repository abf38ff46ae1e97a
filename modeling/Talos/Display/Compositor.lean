import Talos.Display.Record
import Talos.Rust.Core
import Talos.Rust.Routine

/-!
# The display compositor of the Windows viewer

`ModernDisplayCompositor` of `display_delta.rs`. It keeps the desktop as rows of BGRA
pixels and a queue of frames for the GPU desktop. Sums of 32-bit values wrap, as in a
release build; an index outside a buffer is a panic, which is `none`. What the H.264
decoder and the viewport answer during a call is given from outside.

Two fields record what the code does not keep: the rectangles that `validate_rect` let
pass, with the size of the desktop then, and all frames that were ever queued.
-/

namespace Talos.Display

open Rust

structure Rect where
  x : UInt32
  y : UInt32
  width : UInt32
  height : UInt32
deriving DecidableEq

structure ExperimentalMoveRect where
  srcX : UInt32
  srcY : UInt32
  dstX : UInt32
  dstY : UInt32
  width : UInt32
  height : UInt32
deriving DecidableEq

structure PendingExperimentalAtlas where
  atlasWidth : UInt32
  atlasHeight : UInt32
  rects : List DisplayAtlasRect
  tileCommands : Bytes
  recordBytes : ℕ
deriving DecidableEq

structure DeferredExperimentalFrame where
  frameId : UInt64
  desktopWidth : UInt32
  desktopHeight : UInt32
  atlas : PendingExperimentalAtlas
  moves : List ExperimentalMoveRect
  presentAfterComposite : Bool
deriving DecidableEq

def DeferredExperimentalFrame.queuedBytes (frame : DeferredExperimentalFrame) : ℕ :=
  saturatingAdd
    (saturatingAdd (saturatingAdd frame.atlas.tileCommands.length frame.atlas.recordBytes)
      (saturatingMul frame.atlas.rects.length 24))
    (saturatingMul frame.moves.length 24)

def maxDeferredExperimentalFrames : ℕ := 64

def maxDeferredExperimentalBytes : ℕ := 192 * 1024 * 1024

def largeExperimentalFrameBytes : ℕ := 1024 * 1024

structure Compositor where
  width : UInt32
  height : UInt32
  bgra : Bytes
  decoderSize : Option (UInt32 × UInt32)
  currentFrameId : Option UInt64
  damage : List Rect
  experimentalFrame : Bool
  experimentalChunkedFrame : Bool
  experimentalAtlas : Option PendingExperimentalAtlas
  experimentalMoves : List ExperimentalMoveRect
  deferredExperimentalFrames : List DeferredExperimentalFrame
  deferredExperimentalBytes : ℕ
  accepted : List (Rect × UInt32 × UInt32)
  queued : List DeferredExperimentalFrame

/-- `ModernDisplayCompositor::new()`. -/
def Compositor.new : Compositor where
  width := 0
  height := 0
  bgra := []
  decoderSize := none
  currentFrameId := none
  damage := []
  experimentalFrame := false
  experimentalChunkedFrame := false
  experimentalAtlas := none
  experimentalMoves := []
  deferredExperimentalFrames := []
  deferredExperimentalBytes := 0
  accepted := []
  queued := []

structure Outside where
  /-- The error of `H264Decoder::new`, if it fails. -/
  newDecoder : Except String Unit
  decode : Except String (Option Bytes)
  presentCached : Except String Unit
  /-- The n-th frame of a flush is presented or dropped, or deferred for a reason. -/
  presentExperimental : ℕ → Except String (Option String)

/-- A computation of the compositor: it may return an error, and `none` is a panic. -/
abbrev Handler (α : Type) := Routine Compositor String α

def ensure (condition : Bool) (description : String) : Handler Unit :=
  if condition then pure () else throw description

/-! ## The queue of frames for the GPU desktop -/

def dropOlder (frame : DeferredExperimentalFrame) :
    List DeferredExperimentalFrame → ℕ → List DeferredExperimentalFrame × ℕ
  | [], bytes => ([], bytes)
  | pending :: rest, bytes =>
    if pending.frameId < frame.frameId then dropOlder frame rest (bytes - pending.queuedBytes)
    else (pending :: rest, bytes)

def dropToLimit : List DeferredExperimentalFrame → ℕ → List DeferredExperimentalFrame × ℕ
  | [], bytes => ([], if maxDeferredExperimentalBytes < bytes then 0 else bytes)
  | dropped :: rest, bytes =>
    if maxDeferredExperimentalFrames < (dropped :: rest).length
        ∨ maxDeferredExperimentalBytes < bytes then
      dropToLimit rest (bytes - dropped.queuedBytes)
    else (dropped :: rest, bytes)

def Compositor.queueDeferred (s : Compositor) (frame : DeferredExperimentalFrame) : Compositor :=
  let (pending, bytes) :=
    if largeExperimentalFrameBytes ≤ frame.queuedBytes then
      dropOlder frame s.deferredExperimentalFrames s.deferredExperimentalBytes
    else (s.deferredExperimentalFrames, s.deferredExperimentalBytes)
  let (pending, bytes) :=
    dropToLimit (pending ++ [frame]) (saturatingAdd bytes frame.queuedBytes)
  { s with
    deferredExperimentalFrames := pending
    deferredExperimentalBytes := bytes
    queued := s.queued ++ [frame] }

/-- The loop of `flush_deferred_experimental_frames`, with what is left in the queue. -/
def flushFrom (outside : Outside) :
    ℕ → List DeferredExperimentalFrame → ℕ →
      Except String Unit × List DeferredExperimentalFrame × ℕ
  | _, [], bytes => (.ok (), [], bytes)
  | n, frame :: rest, bytes =>
    let left := bytes - frame.queuedBytes
    match outside.presentExperimental n with
    | .error e => (.error e, rest, left)
    | .ok (some _) => (.ok (), frame :: rest, saturatingAdd left frame.queuedBytes)
    | .ok none => flushFrom outside (n + 1) rest left

variable (outside : Outside)

def flushDeferredExperimentalFrames : Handler Unit := do
  let s ← get
  let (outcome, pending, bytes) :=
    flushFrom outside 0 s.deferredExperimentalFrames s.deferredExperimentalBytes
  set { s with deferredExperimentalFrames := pending, deferredExperimentalBytes := bytes }
  match outcome with
  | .ok () => pure ()
  | .error e => throw e

/-! ## Frames and rectangles -/

variable (frameId : UInt64)

def beginFrame (width height : UInt32) : Handler Unit := do
  ensure (width ≠ 0 ∧ height ≠ 0) "display frame has zero dimensions"
  let len := width.toNat * height.toNat * 4
  ensure (len < 2 ^ 32) "display frame dimensions overflow"
  let s ← get
  let s := if s.width ≠ width ∨ s.height ≠ height ∨ s.bgra.length ≠ len then
      { s with width, height, bgra := List.replicate len 0 }
    else s
  set { s with
    currentFrameId := some frameId
    damage := []
    experimentalFrame := false
    experimentalChunkedFrame := false
    experimentalAtlas := none
    experimentalMoves := [] }

def ensureFrame : Handler Unit := do
  ensure ((← get).currentFrameId = some frameId)
    "display record frame id does not match active frame"

/-- The check of `validate_rect`; the two sums wrap. -/
def rectFits (rect : Rect) (width height : UInt32) : Bool :=
  !(rect.width = 0 || rect.height = 0 || rect.x + rect.width > width
    || rect.y + rect.height > height)

def validateRect (rect : Rect) : Handler Unit := do
  let s ← get
  ensure (rectFits rect s.width s.height) "display record rect exceeds desktop bounds"
  set { s with accepted := s.accepted ++ [(rect, s.width, s.height)] }

/-- `pixel_offset`, in a buffer with rows of `width` pixels. -/
def pixelOffset (width x y : UInt32) : ℕ := (y.toNat * width.toNat + x.toNat) * 4

def readRows (buffer : Bytes) (stride : UInt32) (rect : Rect) : Option (List Bytes) :=
  (List.range rect.height.toNat).mapM fun row =>
    let start := pixelOffset stride rect.x (rect.y + UInt32.ofNat row)
    slice buffer start (start + rect.width.toNat * 4)

/-- `buffer[start..start + row.len()].copy_from_slice(row)`. -/
def writeRow (buffer : Bytes) (start : ℕ) (row : Bytes) : Option Bytes :=
  if start + row.length ≤ buffer.length then
    some (buffer.take start ++ row ++ buffer.drop (start + row.length))
  else none

/-- The rows are written from row number `row` of the rectangle at `(x, y)` on. -/
def writeRows (stride x y : UInt32) : ℕ → List Bytes → Bytes → Option Bytes
  | _, [], buffer => some buffer
  | row, bytes :: rows, buffer => do
      let buffer ← writeRow buffer (pixelOffset stride x (y + UInt32.ofNat row)) bytes
      writeRows stride x y (row + 1) rows buffer

def paint (target : Rect) (rows : List Bytes) : Handler Unit := do
  let s ← get
  let bgra ← (writeRows s.width target.x target.y 0 rows s.bgra : Option Bytes)
  set { s with bgra, damage := s.damage ++ [target] }

def applyMoveRect (srcX srcY dstX dstY width height : UInt32) : Handler Unit := do
  validateRect { x := srcX, y := srcY, width, height }
  validateRect { x := dstX, y := dstY, width, height }
  let s ← get
  let rows ← (readRows s.bgra s.width { x := srcX, y := srcY, width, height } :
    Option (List Bytes))
  paint { x := dstX, y := dstY, width, height } rows

def DisplayAtlasRect.target (rect : DisplayAtlasRect) : Rect :=
  { x := rect.dstX, y := rect.dstY, width := rect.width, height := rect.height }

def DisplayAtlasRect.inAtlas (rect : DisplayAtlasRect) : Rect :=
  { x := rect.atlasX, y := rect.atlasY, width := rect.width, height := rect.height }

def copyAtlasRects (atlasWidth atlasHeight : UInt32) (atlasBgra : Bytes) :
    List DisplayAtlasRect → Handler Unit
  | [] => pure ()
  | rect :: rects => do
      validateRect rect.target
      ensure (!(rect.atlasX + rect.width > atlasWidth || rect.atlasY + rect.height > atlasHeight))
        "display atlas rect exceeds atlas bounds"
      let rows ← (readRows atlasBgra atlasWidth rect.inAtlas : Option (List Bytes))
      paint rect.target rows
      copyAtlasRects atlasWidth atlasHeight atlasBgra rects

def applyH264Atlas (atlasWidth atlasHeight : UInt32) (rects : List DisplayAtlasRect) :
    Handler Unit := do
  let s ← get
  if s.decoderSize ≠ some (atlasWidth, atlasHeight) then
    match outside.newDecoder with
    | .ok () => set { s with decoderSize := some (atlasWidth, atlasHeight) }
    | .error e => throw e
  match outside.decode with
  | .error e => throw e
  | .ok none => pure ()
  | .ok (some atlasBgra) => copyAtlasRects atlasWidth atlasHeight atlasBgra rects

def validateExperimentalRects (atlasWidth atlasHeight : UInt32) :
    List DisplayAtlasRect → Handler Unit
  | [] => pure ()
  | rect :: rects => do
      validateRect rect.target
      ensure (!(2 ^ 32 ≤ rect.atlasX.toNat + rect.width.toNat
          || 2 ^ 32 ≤ rect.atlasY.toNat + rect.height.toNat
          || rect.atlasX + rect.width > atlasWidth || rect.atlasY + rect.height > atlasHeight))
        "experimental atlas rect exceeds atlas bounds"
      validateExperimentalRects atlasWidth atlasHeight rects

def validateExperimentalAtlas (atlasWidth atlasHeight : UInt32) (rects : List DisplayAtlasRect) :
    Handler Unit := do
  ensure (atlasWidth ≠ 0 ∧ atlasHeight ≠ 0) "experimental atlas has zero dimensions"
  validateExperimentalRects atlasWidth atlasHeight rects

/-! ## The end of a frame -/

def endExperimentalFrame : Handler Unit := do
  let s ← get
  if s.experimentalChunkedFrame ∧ s.experimentalAtlas.isNone then
    ensure s.experimentalMoves.isEmpty
      "experimental chunked frame cannot carry trailing move rects"
    flushDeferredExperimentalFrames outside
  else
    match s.experimentalAtlas with
    | none => throw "experimental frame ended without atlas command record"
    | some atlas =>
      set ({ s with experimentalAtlas := none, experimentalMoves := [] }.queueDeferred
        { frameId, desktopWidth := s.width, desktopHeight := s.height, atlas,
          moves := s.experimentalMoves, presentAfterComposite := true })
      flushDeferredExperimentalFrames outside

def endFrame : Handler Unit := do
  ensureFrame frameId
  if (← get).experimentalFrame then
    endExperimentalFrame outside frameId
    modify fun s => { s with
      currentFrameId := none
      damage := []
      experimentalFrame := false
      experimentalChunkedFrame := false
      experimentalAtlas := none
      experimentalMoves := [] }
  else
    match outside.presentCached with
    | .error e => throw e
    | .ok () => modify fun s => { s with currentFrameId := none, damage := [] }

/-! ## One record -/

/-- `DISPLAY_EXPERIMENTAL_ATLAS_CHUNK_FLAG_FINAL`. -/
def chunkFlagFinal : UInt32 := 0x02

def applyRecord (recordBytes : ℕ) : DisplayRecord → Handler Unit
  | .frameBegin frameId width height => beginFrame frameId width height
  | .frameEnd frameId => endFrame outside frameId
  | .moveRect frameId srcX srcY dstX dstY width height => do
      ensureFrame frameId
      if (← get).experimentalFrame then
        validateRect { x := srcX, y := srcY, width, height }
        validateRect { x := dstX, y := dstY, width, height }
        modify fun s => { s with
          experimentalMoves := s.experimentalMoves ++ [{ srcX, srcY, dstX, dstY, width, height }] }
      else applyMoveRect srcX srcY dstX dstY width height
  | .atlasH264 frameId _ atlasWidth atlasHeight rects _ => do
      ensureFrame frameId
      applyH264Atlas outside atlasWidth atlasHeight rects
  | .experimentalAtlasCommands frameId atlasWidth atlasHeight rects tileCommands => do
      ensureFrame frameId
      modify fun s => { s with experimentalFrame := true }
      validateExperimentalAtlas atlasWidth atlasHeight rects
      modify fun s => { s with
        experimentalAtlas := some { atlasWidth, atlasHeight, rects, tileCommands, recordBytes } }
  | .experimentalAtlasCommandsChunk frameId flags _ _ atlasWidth atlasHeight rects
      tileCommands => do
      ensureFrame frameId
      modify fun s => { s with experimentalFrame := true, experimentalChunkedFrame := true }
      validateExperimentalAtlas atlasWidth atlasHeight rects
      modify fun s => { s with experimentalMoves := [] }.queueDeferred
        { frameId, desktopWidth := s.width, desktopHeight := s.height,
          atlas := { atlasWidth, atlasHeight, rects, tileCommands, recordBytes },
          moves := s.experimentalMoves, presentAfterComposite := flags &&& chunkFlagFinal ≠ 0 }
      flushDeferredExperimentalFrames outside
  | .keyframe frameId width height _ payload => do
      beginFrame frameId width height
      ensure (payload.length = (← get).bgra.length) "display keyframe payload length mismatch"
      modify fun s => { s with
        bgra := payload, damage := s.damage ++ [{ x := 0, y := 0, width, height }] }

/-- The text of a decoding error. -/
def DisplayRecordParseError.display : DisplayRecordParseError → String
  | .tooShort => "display record too short"
  | .lengthMismatch => "display record length mismatch"
  | .invalidPayload => "display record payload invalid"

/-- `handle_record`: the new state, or a panic. -/
def handleRecord (s : Compositor) (recordBytes : Bytes) :
    Option (Except String Unit × Compositor) :=
  match (decodeDisplayRecord recordBytes :
      Option (Except DisplayRecordParseError DisplayRecord)) with
  | none => none
  | some (.error e) => some (.error e.display, s)
  | some (.ok record) => (applyRecord outside recordBytes.length record).exec s

end Talos.Display
