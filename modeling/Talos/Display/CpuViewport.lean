import Talos.Display.Compositor
import Talos.Rust.Checked

/-!
# The display compositor of the CPU viewport

`ModernDisplayCompositor` of `viewport_cpu.rs` in a build for another system than macOS.
It keeps the desktop as rows of BGRA pixels and rebuilds the atlas of a frame from a
stream of ATX2 commands. An index outside a buffer, a copy of a wrong length, and an
integer operation whose result does not fit are a panic, which is `none`.
-/

namespace Talos.Display.Cpu

open Rust Rust.Routine

/-! ## Numbers and rectangles -/

/-- `read_u32`: it checks the offset itself. -/
def readU32 (bytes : Bytes) (offset : ℕ) : Except String UInt32 :=
  match usizeAdd offset 4 with
  | none => .error "u32 read offset overflow"
  | some stop =>
    match slice bytes offset stop with
    | none => .error "u32 read exceeds byte stream"
    | some value => .ok (u32OfBytes value)

def frameLen (width height : UInt32) : Except String ℕ :=
  match usizeMul width.toNat height.toNat with
  | none => .error "frame dimensions overflow"
  | some pixels =>
    match usizeMul pixels 4 with
    | none => .error "frame dimensions overflow"
    | some len => .ok len

def exceeds (start length limit : UInt32) : Bool :=
  match u32CheckedAdd start length with
  | none => true
  | some stop => limit < stop

def validateRect (x y width height limitWidth limitHeight : UInt32) : Except String Unit :=
  if width = 0 ∨ height = 0 then .error "rect is empty"
  else if exceeds x width limitWidth ∨ exceeds y height limitHeight then
    .error "rect exceeds bounds"
  else .ok ()

def alignUsizeTo4 (value : ℕ) : Option ℕ := do
  let value ← usizeAdd value 3
  pure (value / 4 * 4)

def divCeil (a b : ℕ) : ℕ := (a + (b - 1)) / b

/-! ## Copies -/

/-- `&buffer[start..start + length]`. -/
def sliceFrom (buffer : Bytes) (start length : ℕ) : Option Bytes := do
  let stop ← usizeAdd start length
  slice buffer start stop

/-- `buffer[start..start + length].copy_from_slice(bytes)`. -/
def copyAt (start length : ℕ) (bytes buffer : Bytes) : Option Bytes := do
  let stop ← usizeAdd start length
  if stop ≤ buffer.length ∧ bytes.length = length then
    some (buffer.take start ++ bytes ++ buffer.drop stop)
  else none

/-- `((y as usize + row) * stride) + x as usize * 4`. -/
def rowStart (stride : ℕ) (x y : UInt32) (row : ℕ) : Option ℕ := do
  let line ← usizeAdd y.toNat row
  let line ← usizeMul line stride
  let column ← usizeMul x.toNat 4
  usizeAdd line column

/-- A rectangle is copied row by row from `source` to `buffer`. -/
def copyRows (source : Bytes) (sourceStride : ℕ) (sourceX sourceY : UInt32) (stride : ℕ)
    (x y width height : UInt32) (buffer : Bytes) : Option Bytes := do
  let rowBytes ← usizeMul width.toNat 4
  (List.range height.toNat).foldlM (fun buffer row => do
    let src ← rowStart sourceStride sourceX sourceY row
    let dst ← rowStart stride x y row
    let bytes ← sliceFrom source src rowBytes
    copyAt dst rowBytes bytes buffer) buffer

def copyPreviousRect (stride : ℕ) (x y width height : UInt32) (previous : Bytes)
    (desktopWidth desktopX desktopY : UInt32) (atlas : Bytes) : Option Bytes := do
  let desktopStride ← usizeMul desktopWidth.toNat 4
  copyRows previous desktopStride desktopX desktopY stride x y width height atlas

def fillRect (stride : ℕ) (x y width height : UInt32) (color atlas : Bytes) : Option Bytes :=
  (List.range height.toNat).foldlM (fun atlas row => do
    let dst ← rowStart stride x y row
    (List.range width.toNat).foldlM (fun atlas pixel => do
      let offset ← usizeMul pixel 4
      let start ← usizeAdd dst offset
      copyAt start 4 color atlas) atlas) atlas

def writePixel (stride : ℕ) (x y width : UInt32) (pixel : ℕ) (color atlas : Bytes) :
    Option Bytes := do
  let row ← usizeDiv pixel width.toNat
  let col ← usizeRem pixel width.toNat
  let line ← usizeAdd y.toNat row
  let line ← usizeMul line stride
  let column ← usizeAdd x.toNat col
  let column ← usizeMul column 4
  let dst ← usizeAdd line column
  copyAt dst 4 color atlas

/-! ## Colours -/

/-- `u32::from(clamp(value))`. -/
def clamp (value : ℤ) : UInt32 := UInt32.ofNat (max 0 (min value 255)).toNat

def signExtend (value : UInt32) (bits : ℕ) : Option ℤ := do
  let signBit ← u32Shl 1 (bits - 1)
  if value &&& signBit = 0 then pure (asI32 value)
  else
    let range ← i32Bit bits
    i32 (asI32 value - range)

/-- `sign_extend(value, bits) * factor`. -/
def scaled (value : UInt32) (bits : ℕ) (factor : ℤ) : Option ℤ := do
  let value ← signExtend value bits
  i32 (value * factor)

def applyMaskedQuantDelta (previousPixel packedDelta quantShift : UInt32) : Option UInt32 := do
  let factor ← i32Bit quantShift.toNat
  let previousB := asI32 (previousPixel &&& 0xff)
  let previousG := asI32 ((previousPixel >>> 8) &&& 0xff)
  let previousR := asI32 ((previousPixel >>> 16) &&& 0xff)
  let alpha := previousPixel &&& 0xff000000
  let deltaB ← scaled (packedDelta &&& 0x1f) 5 factor
  let deltaG ← scaled ((packedDelta >>> 5) &&& 0x3f) 6 factor
  let deltaR ← scaled ((packedDelta >>> 11) &&& 0x1f) 5 factor
  let b ← i32 (previousB + deltaB)
  let g ← i32 (previousG + deltaG)
  let r ← i32 (previousR + deltaR)
  pure (clamp b ||| (clamp g <<< 8) ||| (clamp r <<< 16) ||| alpha)

def rgb565ToBgra (value : UInt32) : UInt32 :=
  let b5 := value &&& 0x1f
  let g6 := (value >>> 5) &&& 0x3f
  let r5 := (value >>> 11) &&& 0x1f
  let b := (b5 <<< 3) ||| (b5 >>> 2)
  let g := (g6 <<< 2) ||| (g6 >>> 4)
  let r := (r5 <<< 3) ||| (r5 >>> 2)
  b ||| (g <<< 8) ||| (r <<< 16) ||| 0xff000000

/-- `ycocg_to_bgra`; the arithmetic shift by one is the division that rounds down. -/
def ycocgToBgra (y co cg : ℤ) : Option UInt32 := do
  let tmp ← i32 (y - cg / 2)
  let g ← i32 (cg + tmp)
  let b ← i32 (tmp - co / 2)
  let r ← i32 (b + co)
  pure (clamp b ||| (clamp g <<< 8) ||| (clamp r <<< 16) ||| 0xff000000)

/-! ## The commands of a stream -/

structure Tile where
  kind : UInt32
  atlasX : UInt32
  atlasY : UInt32
  desktopX : UInt32
  desktopY : UInt32
  width : UInt32
  height : UInt32
  changedCount : ℕ
  payload : Bytes

structure Desktop where
  previous : Option Bytes
  width : UInt32
  height : UInt32

/-- A computation on the atlas: it may return an error, and `none` is a panic. -/
abbrev Painter (α : Type) := Routine Bytes String α

def draw (f : Bytes → Option Bytes) : Painter Unit := do
  let atlas ← get
  let atlas ← (f atlas : Option Bytes)
  set atlas

def require (condition : Bool) (description : String) : Painter Unit :=
  if condition then pure () else throw description

def readPreviousPixel (previous : Bytes) (desktopWidth desktopX desktopY tileWidth : UInt32)
    (pixel : ℕ) : Painter UInt32 := do
  let row ← usizeDiv pixel tileWidth.toNat
  let col ← usizeRem pixel tileWidth.toNat
  let line ← usizeAdd desktopY.toNat row
  let line ← usizeMul line desktopWidth.toNat
  let line ← usizeAdd line desktopX.toNat
  let index ← usizeAdd line col
  match usizeMul index 4 with
  | none => throw "previous desktop pixel offset overflow"
  | some offset => readU32 previous offset

/-- `readU32` at `base + index * 4`. -/
def readWord (bytes : Bytes) (base index : ℕ) : Painter UInt32 := do
  let offset ← usizeMul index 4
  let offset ← usizeAdd base offset
  readU32 bytes offset

def halfWord (word : UInt32) (pixel : ℕ) : UInt32 :=
  if pixel % 2 = 0 then word &&& 0xffff else word >>> 16

namespace Tile

variable (tile : Tile) (stride : ℕ)

def write (pixel : ℕ) (color : UInt32) : Painter Unit :=
  draw (writePixel stride tile.atlasX tile.atlasY tile.width pixel (u32Bytes color))

def solidColor : Painter Unit := do
  require (tile.payload.length = 4) "ATX2 solid-color payload length mismatch"
  let color ← readU32 tile.payload 0
  draw (fillRect stride tile.atlasX tile.atlasY tile.width tile.height (u32Bytes color))

def rawBgra : Painter Unit := do
  let rowBytes ← usizeMul tile.width.toNat 4
  let expected ← usizeMul rowBytes tile.height.toNat
  require (tile.payload.length = expected) "ATX2 raw payload length mismatch"
  (List.range tile.height.toNat).forM fun row => do
    let src ← usizeMul row rowBytes
    let dst ← rowStart stride tile.atlasX tile.atlasY row
    let bytes ← sliceFrom tile.payload src rowBytes
    draw (copyAt dst rowBytes bytes)

variable (desktop : Desktop) (previous : Bytes)

def writeXor (pixel offset : ℕ) : Painter Unit := do
  let prev ← readPreviousPixel previous desktop.width tile.desktopX tile.desktopY tile.width pixel
  let word ← readU32 tile.payload offset
  tile.write stride pixel (prev ^^^ word)

def xorRaw : Painter Unit := do
  let pixelCount ← usizeMul tile.width.toNat tile.height.toNat
  let expected ← usizeMul pixelCount 4
  require (tile.payload.length = expected) "ATX2 XOR raw payload length mismatch"
  (List.range pixelCount).forM fun pixel => do
    let offset ← usizeMul pixel 4
    tile.writeXor stride desktop previous pixel offset

def xorSparse : Painter Unit := do
  require (tile.payload.length % 8 = 0) "ATX2 XOR sparse payload is unaligned"
  let pixelCount ← usizeMul tile.width.toNat tile.height.toNat
  ((List.range (divCeil tile.payload.length 8)).map (· * 8)).forM fun entryOffset => do
    let pixel ← readU32 tile.payload entryOffset
    require (pixel.toNat < pixelCount) "ATX2 XOR sparse pixel index exceeds tile"
    let offset ← usizeAdd entryOffset 4
    tile.writeXor stride desktop previous pixel.toNat offset

def xor (raw : Bool) : Painter Unit := do
  match desktop.previous with
  | none => throw "ATX2 delta command needs previous frame"
  | some previous => do
      validateRect tile.desktopX tile.desktopY tile.width tile.height desktop.width desktop.height
      draw (copyPreviousRect stride tile.atlasX tile.atlasY tile.width tile.height previous
        desktop.width tile.desktopX tile.desktopY)
      if raw then tile.xorRaw stride desktop previous
      else tile.xorSparse stride desktop previous

/-- `checked_mul`, with the error text. -/
def checkedMul (a b : ℕ) (description : String) : Painter ℕ :=
  match usizeMul a b with
  | none => throw description
  | some c => pure c

def checkedAdd (a b : ℕ) (description : String) : Painter ℕ :=
  match usizeAdd a b with
  | none => throw description
  | some c => pure c

def maskedPixel (quantShift : UInt32) (residualOffset : ℕ) (seen pixel : ℕ) : Painter ℕ := do
  let previousPixel ←
    readPreviousPixel previous desktop.width tile.desktopX tile.desktopY tile.width pixel
  let maskWord ← readWord tile.payload 4 (pixel / 32)
  let bit ← u32Shl 1 (pixel % 32)
  if maskWord &&& bit ≠ 0 then
    let residualWord ← readWord tile.payload residualOffset (pixel / 2)
    let color ← applyMaskedQuantDelta previousPixel (halfWord residualWord pixel) quantShift
    tile.write stride pixel color
    pure (saturatingAdd seen 1)
  else
    tile.write stride pixel previousPixel
    pure seen

def maskedQuantDelta : Painter Unit := do
  match desktop.previous with
  | none => throw "ATX2 masked delta command needs previous frame"
  | some previous => do
      validateRect tile.desktopX tile.desktopY tile.width tile.height desktop.width desktop.height
      let pixelCount ← usizeMul tile.width.toNat tile.height.toNat
      require (tile.changedCount ≤ pixelCount) "ATX2 masked delta changed count exceeds tile"
      let maskBytes ← checkedMul (divCeil pixelCount 32) 4 "ATX2 mask byte length overflow"
      let residualBytes ← checkedMul pixelCount 2 "ATX2 residual byte length overflow"
      let unaligned ← checkedAdd 4 maskBytes "ATX2 masked delta payload length overflow"
      let unaligned ← checkedAdd unaligned residualBytes
        "ATX2 masked delta payload length overflow"
      let expected ← alignUsizeTo4 unaligned
      require (tile.payload.length = expected) "ATX2 masked delta payload length mismatch"
      let header ← readU32 tile.payload 0
      let quantShift := header &&& 0xff
      require (quantShift ≤ 4) "ATX2 masked delta shift is invalid"
      let residualOffset ← usizeAdd 4 maskBytes
      let seen ← (List.range pixelCount).foldlM
        (tile.maskedPixel stride desktop previous quantShift residualOffset) 0
      require (seen = tile.changedCount) "ATX2 masked delta changed mask count mismatch"

def lossyPixel (chromaWidth chromaOffset pixel : ℕ) : Painter Unit := do
  let yWord ← readWord tile.payload 4 (pixel / 8)
  let shifted ← u32Shr yWord (pixel % 8 * 4)
  let y4 := shifted &&& 0x0f
  let y := asI32 ((y4 <<< 4) ||| y4)
  let px ← usizeRem pixel tile.width.toNat
  let py ← usizeDiv pixel tile.width.toNat
  let chromaRow ← usizeMul (py / 4) chromaWidth
  let chromaIndex ← usizeAdd chromaRow (px / 4)
  let chromaWord ← readWord tile.payload chromaOffset (chromaIndex / 4)
  let shifted ← u32Shr chromaWord (chromaIndex % 4 * 8)
  let chromaByte := shifted &&& 0xff
  let co ← scaled (chromaByte &&& 0x0f) 4 32
  let cg ← scaled ((chromaByte >>> 4) &&& 0x0f) 4 32
  let color ← ycocgToBgra y co cg
  tile.write stride pixel color

def lossyUiBlock : Painter Unit := do
  let pixelCount ← usizeMul tile.width.toNat tile.height.toNat
  let chromaWidth := divCeil tile.width.toNat 4
  let chromaHeight := divCeil tile.height.toNat 4
  let chromaCount ← checkedMul chromaWidth chromaHeight "ATX2 lossy block chroma count overflow"
  let yBytes ← alignUsizeTo4 (divCeil pixelCount 2)
  let chromaBytes ← alignUsizeTo4 chromaCount
  let expected ← checkedAdd 4 yBytes "ATX2 lossy block payload length overflow"
  let expected ← checkedAdd expected chromaBytes "ATX2 lossy block payload length overflow"
  require (tile.payload.length = expected) "ATX2 lossy block payload length mismatch"
  let header ← readU32 tile.payload 0
  require ((header &&& 0xffff).toNat = chromaWidth ∧ (header >>> 16).toNat = chromaHeight)
    "ATX2 lossy block chroma dimensions mismatch"
  let chromaOffset ← usizeAdd 4 yBytes
  (List.range pixelCount).forM (tile.lossyPixel stride chromaWidth chromaOffset)

def sharpUiBlock : Painter Unit := do
  let pixelCount ← usizeMul tile.width.toNat tile.height.toNat
  let unaligned ← checkedMul pixelCount 2 "ATX2 sharp block payload length overflow"
  let expected ← alignUsizeTo4 unaligned
  require (tile.payload.length = expected) "ATX2 sharp block payload length mismatch"
  (List.range pixelCount).forM fun pixel => do
    let word ← readWord tile.payload 0 (pixel / 2)
    tile.write stride pixel (rgb565ToBgra (halfWord word pixel))

def paint : Painter Unit :=
  match tile.kind with
  | 1 => tile.rawBgra stride
  | 2 => tile.solidColor stride
  | 3 => tile.xor stride desktop true
  | 4 => tile.xor stride desktop false
  | 5 => tile.maskedQuantDelta stride desktop
  | 6 => tile.lossyUiBlock stride
  | 7 => tile.sharpUiBlock stride
  | other => throw s!"unsupported ATX2 command kind {other}"

end Tile

def tileCommandStreamHeaderBytes : ℕ := 32

def tileCommandHeaderBytes : ℕ := 24

/-- The header of the command at an offset and its payload, with the offset behind it. -/
def readTile (bytes : Bytes) (atlasWidth atlasHeight : UInt32) (offset : ℕ) :
    Painter (Tile × ℕ) := do
  let headerEnd ← usizeAdd offset tileCommandHeaderBytes
  require (headerEnd ≤ bytes.length) "ATX2 command header is truncated"
  let kind ← readWord bytes offset 0
  let atlasXy ← readWord bytes offset 1
  let desktopXy ← readWord bytes offset 2
  let wh ← readWord bytes offset 3
  let payloadLen ← readWord bytes offset 4
  let changedCount ← readWord bytes offset 5
  let tile : Tile :=
    { kind, atlasX := atlasXy &&& 0xffff, atlasY := atlasXy >>> 16
      desktopX := desktopXy &&& 0xffff, desktopY := desktopXy >>> 16
      width := wh &&& 0xffff, height := wh >>> 16
      changedCount := changedCount.toNat, payload := [] }
  let payloadOffset ← usizeAdd offset tileCommandHeaderBytes
  let payloadEnd ← Tile.checkedAdd payloadOffset payloadLen.toNat "ATX2 payload offset overflow"
  require (payloadEnd ≤ bytes.length) "ATX2 command payload is truncated"
  validateRect tile.atlasX tile.atlasY tile.width tile.height atlasWidth atlasHeight
  let payload ← slice bytes payloadOffset payloadEnd
  pure ({ tile with payload }, payloadEnd)

/-- The loop over the commands. Without fuel it panics, so the results below include that the
loop ends. -/
def paintTiles (bytes : Bytes) (atlasWidth atlasHeight : UInt32) (stride : ℕ) (desktop : Desktop) :
    ℕ → ℕ → Painter Unit
  | fuel, offset =>
    if offset < bytes.length then
      match fuel with
      | 0 => (liftM (none : Option Unit) : Painter Unit)
      | fuel + 1 => do
          let (tile, next) ← readTile bytes atlasWidth atlasHeight offset
          tile.paint stride desktop
          paintTiles bytes atlasWidth atlasHeight stride desktop fuel next
    else pure ()

/-! ## The compositor -/

structure DecodedFrame where
  width : UInt32
  height : UInt32
  fps : UInt32
  argb : List UInt32

structure Compositor where
  width : UInt32
  height : UInt32
  bgra : Bytes
  currentFrameId : Option UInt64

def Compositor.new : Compositor where
  width := 0
  height := 0
  bgra := []
  currentFrameId := none

abbrev Handler (α : Type) := Routine Compositor String α

def ensure (condition : Bool) (description : String) : Handler Unit :=
  if condition then pure () else throw description

/-- `reconstruct_atlas_from_atx2`. -/
def reconstructAtlasFromAtx2 (bytes : Bytes) (atlasWidth atlasHeight : UInt32)
    (desktop : Desktop) : Handler Bytes := do
  ensure (!(bytes.length < tileCommandStreamHeaderBytes || bytes.length % 4 != 0))
    "ATX2 stream is truncated or unaligned"
  let magic ← readU32 bytes 0
  ensure (magic = 0x32585441) "bad ATX2 stream magic"
  let version ← readU32 bytes 4
  ensure (version = 4) "unsupported ATX2 stream version"
  let byteLength ← readU32 bytes 20
  ensure (byteLength.toNat = bytes.length) "ATX2 byte length mismatch"
  let len ← frameLen atlasWidth atlasHeight
  let stride ← usizeMul atlasWidth.toNat 4
  onValue (List.replicate len 0) (paintTiles bytes atlasWidth atlasHeight stride desktop
    bytes.length tileCommandStreamHeaderBytes)

def beginFrame (frameId : UInt64) (width height : UInt32) : Handler Unit := do
  let len ← frameLen width height
  let s ← get
  let s := if s.width ≠ width ∨ s.height ≠ height ∨ s.bgra.length ≠ len then
      { s with width, height, bgra := List.replicate len 0 }
    else s
  set { s with currentFrameId := some frameId }

def ensureFrame (frameId : UInt64) : Handler Unit := do
  ensure ((← get).currentFrameId = some frameId)
    "display record frame id does not match active frame"

def applyMove (srcX srcY dstX dstY width height : UInt32) : Handler Unit := do
  let s ← get
  validateRect srcX srcY width height s.width s.height
  validateRect dstX dstY width height s.width s.height
  let stride ← usizeMul s.width.toNat 4
  let bgra ← copyRows s.bgra stride srcX srcY stride dstX dstY width height s.bgra
  set { s with bgra }

def copyAtlasRect (atlas : Bytes) (atlasWidth atlasHeight : UInt32) (rect : DisplayAtlasRect) :
    Handler Unit := do
  let s ← get
  let desktopStride ← usizeMul s.width.toNat 4
  let atlasStride ← usizeMul atlasWidth.toNat 4
  validateRect rect.dstX rect.dstY rect.width rect.height s.width s.height
  validateRect rect.atlasX rect.atlasY rect.width rect.height atlasWidth atlasHeight
  let bgra ← copyRows atlas atlasStride rect.atlasX rect.atlasY desktopStride rect.dstX rect.dstY
    rect.width rect.height s.bgra
  set { s with bgra }

def applyAtx2Atlas (atlasWidth atlasHeight : UInt32) (rects : List DisplayAtlasRect)
    (tileCommands : Bytes) : Handler Unit := do
  if tileCommands.isEmpty then pure ()
  else
    let s ← get
    let atlas ← reconstructAtlasFromAtx2 tileCommands atlasWidth atlasHeight
      { previous := some s.bgra, width := s.width, height := s.height }
    rects.forM (copyAtlasRect atlas atlasWidth atlasHeight)

def bgraToArgb : Bytes → List UInt32
  | b :: g :: r :: a :: rest =>
    (b.toUInt32 ||| (g.toUInt32 <<< 8) ||| (r.toUInt32 <<< 16) ||| (a.toUInt32 <<< 24)) ::
      bgraToArgb rest
  | _ => []

def Compositor.decodedFrame (s : Compositor) : DecodedFrame where
  width := s.width
  height := s.height
  fps := 0
  argb := bgraToArgb s.bgra

def replaceBgra (expected : ℕ) (bgra : Bytes) : Handler Unit := do
  ensure (bgra.length = expected) "display keyframe decoded length mismatch"
  let s ← get
  let bgra ← copyAt 0 s.bgra.length bgra s.bgra
  set { s with bgra }

variable (zstd : Except String Bytes)

/-- The pixels of a keyframe are sent as they are or compressed; `zstd` is what
`zstd::stream::decode_all` returns. -/
def applyKeyframe (frameId : UInt64) (width height rawLen : UInt32) (payload : Bytes) :
    Handler Unit := do
  beginFrame frameId width height
  let expected ← frameLen width height
  if payload.length = expected then replaceBgra expected payload
  else if rawLen.toNat = expected then
    match zstd with
    | .ok bgra => replaceBgra expected bgra
    | .error e => throw ("decode zstd keyframe: " ++ e)
  else throw "display keyframe payload length mismatch"

def applyRecord : DisplayRecord → Handler (Option DecodedFrame)
  | .frameBegin frameId width height => do
      beginFrame frameId width height
      pure none
  | .frameEnd frameId => do
      ensureFrame frameId
      modify fun s => { s with currentFrameId := none }
      pure (some (← get).decodedFrame)
  | .keyframe frameId width height rawLen payload => do
      applyKeyframe zstd frameId width height rawLen payload
      pure none
  | .moveRect frameId srcX srcY dstX dstY width height => do
      ensureFrame frameId
      applyMove srcX srcY dstX dstY width height
      pure none
  | .experimentalAtlasCommands frameId atlasWidth atlasHeight rects tileCommands => do
      ensureFrame frameId
      applyAtx2Atlas atlasWidth atlasHeight rects tileCommands
      pure none
  | .experimentalAtlasCommandsChunk frameId _ _ _ atlasWidth atlasHeight rects tileCommands => do
      ensureFrame frameId
      applyAtx2Atlas atlasWidth atlasHeight rects tileCommands
      pure none
  | .atlasH264 frameId .. => do
      ensureFrame frameId
      throw "H.264 atlas display-delta records are only supported on macOS/Windows viewers"

def handleRecord (s : Compositor) (recordBytes : Bytes) :
    Option (Except String (Option DecodedFrame) × Compositor) :=
  match (decodeDisplayRecord recordBytes :
      Option (Except DisplayRecordParseError DisplayRecord)) with
  | none => none
  | some (.error e) => some (.error e.display, s)
  | some (.ok record) => (applyRecord zstd record).exec s

end Talos.Display.Cpu
