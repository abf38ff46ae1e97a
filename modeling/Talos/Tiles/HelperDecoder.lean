import Talos.Tiles.Colors
import Talos.Tiles.Stream

/-!
# The decoder of the worker's helper

`reconstruct_atlas_from_stream` rebuilds an atlas from a stream and the desktop before the
frame. What a command writes does not depend on the atlas, so its decoder gives the colours of
the pixels of its rectangle, row by row. While it is rebuilt the atlas is a function of column
and row; what is returned is the list of its pixels. `byte_len` of a stream is the length of its
bytes.
-/

namespace Talos.Tiles

open Rust

structure Desktop where
  previous : Option Bytes
  width : UInt32
  height : UInt32

/-- The pixels of an atlas by column and row. -/
abbrev Canvas := ℕ → ℕ → UInt32

def validateRect (x y width height limitWidth limitHeight : UInt32) : Except String Unit := do
  ensure (0 < width.toNat ∧ 0 < height.toNat) "tile command has empty rect"
  ensure (x.toNat + width.toNat ≤ limitWidth.toNat ∧ y.toNat + height.toNat ≤ limitHeight.toNat)
    "tile command rect exceeds bounds"

def alignUsizeTo4 (value : ℕ) : ℕ := (value + 3) / 4 * 4

def lengthMismatch (payload : String) (expected actual : ℕ) : String :=
  s!"{payload} payload length mismatch: expected {expected}, got {actual}"

namespace OwnedCommand

variable (command : OwnedCommand) (desktop : Desktop)

/-! ## Payloads -/

def pixelCount : ℕ := command.width.toNat * command.height.toNat

def eachPixel {α : Type} (color : ℕ → Except String α) : Except String (List α) :=
  (List.range command.pixelCount).mapM color

def readPreviousPixel (previous : Bytes) (pixel : ℕ) : Except String UInt32 :=
  fetch previous (((command.desktopY.toNat + pixel / command.width.toNat) * desktop.width.toNat +
    command.desktopX.toNat + pixel % command.width.toNat) * 4)

/-- The previous desktop that a delta needs at its place. -/
def previousDesktop (description : String) : Except String Bytes :=
  match desktop.previous with
  | none => .error description
  | some previous => do
      validateRect command.desktopX command.desktopY command.width command.height desktop.width
        desktop.height
      return previous

def decodeRawPayload : Except String (List UInt32) := do
  let expected := command.width.toNat * 4 * command.height.toNat
  ensure (command.payload.length = expected)
    (lengthMismatch "raw" expected command.payload.length)
  command.eachPixel fun pixel => fetch command.payload (pixel * 4)

def decodeXorRawPayload : Except String (List UInt32) := do
  let previous ← command.previousDesktop desktop "XOR raw command requires previous desktop"
  ensure (command.payload.length = command.pixelCount * 4) "XOR raw payload length mismatch"
  command.eachPixel fun pixel => do
    let previousPixel ← command.readPreviousPixel desktop previous pixel
    return previousPixel ^^^ (← fetch command.payload (pixel * 4))

def decodeXorSparsePayload : Except String (List UInt32) := do
  let previous ← command.previousDesktop desktop "XOR sparse command requires previous desktop"
  ensure (command.payload.length % 8 = 0) "XOR sparse payload length is not 8-byte aligned"
  let copied ← command.eachPixel (command.readPreviousPixel desktop previous)
  (List.range (command.payload.length / 8)).foldlM (fun colors entry => do
    let pixel ← fetch command.payload (entry * 8)
    ensure (pixel.toNat < command.pixelCount) "XOR sparse pixel index exceeds tile"
    let previousPixel ← command.readPreviousPixel desktop previous pixel.toNat
    return colors.set pixel.toNat
      (previousPixel ^^^ (← fetch command.payload (entry * 8 + 4)))) copied

def decodeMaskedQuantDeltaPayload : Except String (List UInt32) := do
  let previous ← command.previousDesktop desktop
    "masked quant delta command requires previous desktop"
  ensure (command.changedCount.toNat ≤ command.pixelCount)
    "masked quant delta changed count exceeds tile"
  let maskBytes := (command.pixelCount + 31) / 32 * 4
  let expected := alignUsizeTo4 (4 + maskBytes + command.pixelCount * 2)
  ensure (command.payload.length = expected)
    (lengthMismatch "masked quant delta" expected command.payload.length)
  let quantShift := (← fetch command.payload 0) &&& 0xff
  ensure (quantShift ≤ 4) "masked quant delta shift is invalid"
  -- each colour with whether the mask names its pixel
  let seen ← command.eachPixel fun pixel => do
    let previousPixel ← command.readPreviousPixel desktop previous pixel
    let maskWord ← fetch command.payload (4 + pixel / 32 * 4)
    if maskWord &&& (1 <<< UInt32.ofNat (pixel % 32)) ≠ 0 then
      let residual ← fetch command.payload (4 + maskBytes + pixel / 2 * 4)
      return (true, applyMaskedQuantDelta previousPixel
        (halfWord residual (UInt32.ofNat pixel)) quantShift)
    else return (false, previousPixel)
  ensure ((seen.filter Prod.fst).length = command.changedCount.toNat)
    "masked quant delta changed mask count mismatch"
  return seen.map Prod.snd

def decodeLossyUiBlockPayload : Except String (List UInt32) := do
  let chromaWidth := (command.width.toNat + 3) / 4
  let chromaHeight := (command.height.toNat + 3) / 4
  let yBytes := alignUsizeTo4 ((command.pixelCount + 1) / 2)
  let expected := 4 + yBytes + alignUsizeTo4 (chromaWidth * chromaHeight)
  ensure (command.payload.length = expected)
    (lengthMismatch "lossy UI block" expected command.payload.length)
  let header ← fetch command.payload 0
  ensure ((header &&& 0xffff).toNat = chromaWidth ∧ (header >>> 16).toNat = chromaHeight)
    "lossy UI block chroma dimensions mismatch"
  command.eachPixel fun pixel => do
    let yWord ← fetch command.payload (4 + pixel / 8 * 4)
    let y4 := (yWord >>> UInt32.ofNat (pixel % 8 * 4)) &&& 0x0f
    let chromaIndex := pixel / command.width.toNat / 4 * chromaWidth +
      pixel % command.width.toNat / 4
    let chromaWord ← fetch command.payload (4 + yBytes + chromaIndex / 4 * 4)
    let chromaByte := (chromaWord >>> UInt32.ofNat (chromaIndex % 4 * 8)) &&& 0xff
    return ycocgToBgra ((y4 <<< 4) ||| y4).toInt32 (signExtend (chromaByte &&& 0x0f) 4 * 32)
      (signExtend ((chromaByte >>> 4) &&& 0x0f) 4 * 32)

def decodeSharpUiBlockPayload : Except String (List UInt32) := do
  let expected := alignUsizeTo4 (command.pixelCount * 2)
  ensure (command.payload.length = expected)
    (lengthMismatch "sharp UI block" expected command.payload.length)
  command.eachPixel fun pixel => do
    let word ← fetch command.payload (pixel / 2 * 4)
    return rgb565ToBgra (halfWord word (UInt32.ofNat pixel))

/-- The command by its kind. The colour of a solid one is the word at its payload, whatever
length the payload has: `tail` is the stream from there on. -/
def decode (tail : Bytes) : Except String (List UInt32) :=
  match command.kind with
  | 1 => command.decodeRawPayload
  | 2 => do
      let color ← fetch tail 0
      command.eachPixel fun _ => return color
  | 3 => command.decodeXorRawPayload desktop
  | 4 => command.decodeXorSparsePayload desktop
  | 5 => command.decodeMaskedQuantDeltaPayload desktop
  | 6 => command.decodeLossyUiBlockPayload
  | 7 => command.decodeSharpUiBlockPayload
  | other => .error s!"unknown tile command kind {other}"

/-! ## The atlas -/

def header : Header :=
  .ofWords command.kind command.atlasXy command.desktopXy command.wh
    (UInt32.ofNat command.payload.length)

def paint (canvas : Canvas) (colors : List UInt32) : Canvas := fun x y =>
  if command.header.Covers x y then
    colors.getD ((y - command.atlasY.toNat) * command.width.toNat + (x - command.atlasX.toNat)) 0
  else canvas x y

end OwnedCommand

namespace TileCommandStream

variable (stream : TileCommandStream) (desktop : Desktop)

def validateStreamHeader : Except String Unit := do
  ensure (tileCommandStreamHeaderBytes ≤ stream.bytes.length)
    "tile command stream is shorter than header"
  ensure ((← fetch stream.bytes 0) = tileCommandStreamMagic) "bad ATX2 tile command stream magic"
  ensure ((← fetch stream.bytes 4) = tileCommandStreamVersion)
    "unsupported ATX2 tile command stream version"
  ensure ((← fetch stream.bytes 20) = UInt32.ofNat stream.bytes.length)
    "tile command stream byte length header mismatch"

/-- The loop over the commands; a command takes bytes away, so their number is enough fuel. -/
def reconstructFrom (fuel : ℕ) (rest : Bytes) (canvas : Canvas) : Except String Canvas :=
  if rest = [] then .ok canvas
  else
    match fuel with
    | 0 => .error "out of fuel"
    | fuel + 1 => do
        let (command, next) ← parseCommand rest
        validateRect command.atlasX command.atlasY command.width command.height stream.atlasWidth
          stream.atlasHeight
        let colors ← command.decode desktop (rest.drop tileCommandHeaderBytes)
        reconstructFrom fuel next (command.paint canvas colors)

def pixels (canvas : Canvas) : List UInt32 :=
  (List.range (stream.atlasWidth.toNat * stream.atlasHeight.toNat)).map fun i =>
    canvas (i % stream.atlasWidth.toNat) (i / stream.atlasWidth.toNat)

def reconstructAtlasFromStream : Except String (List UInt32) := do
  stream.validateStreamHeader
  let canvas ← stream.reconstructFrom desktop stream.bytes.length
    (stream.bytes.drop tileCommandStreamHeaderBytes) fun _ _ => 0
  return stream.pixels canvas

end TileCommandStream

/-! ## What a stream paints -/

section Painting

variable {command : OwnedCommand} {commands : List OwnedCommand} {desktop : Desktop}

/-- A decoder only looks at the payload, if a solid command has one. -/
theorem decode_append (h : command.kind = 2 → 4 ≤ command.payload.length) (more : Bytes) :
    command.decode desktop (command.payload ++ more) = command.decode desktop command.payload := by
  unfold OwnedCommand.decode
  split
  case h_2 hkind =>
    obtain ⟨color, rest, hpayload⟩ := exists_u32Bytes (h hkind)
    simp [hpayload, fetch]
  all_goals rfl

namespace TileCommandStream

variable {stream : TileCommandStream}

variable (stream desktop) in
structure Accepts (command : OwnedCommand) : Prop where
  rect : validateRect command.atlasX command.atlasY command.width command.height
    stream.atlasWidth stream.atlasHeight = .ok ()
  decodes : ∃ colors, command.decode desktop command.payload = .ok colors

variable (desktop) in
def render (canvas : Canvas) (command : OwnedCommand) : Canvas :=
  command.paint canvas ((command.decode desktop command.payload).toOption.getD [])

/-- The decoder accepts the commands one by one and paints them in order. -/
theorem reconstructFrom_eq_ok {fuel : ℕ} {canvas result : Canvas}
    (hfuel : commands.length ≤ fuel) (hlength : ∀ c ∈ commands, c.payload.length < 2 ^ 32)
    (hsolid : ∀ c ∈ commands, c.kind = 2 → 4 ≤ c.payload.length) :
    stream.reconstructFrom desktop fuel (commands.flatMap OwnedCommand.bytes) canvas = .ok result ↔
      (∀ c ∈ commands, stream.Accepts desktop c) ∧
        commands.foldl (render desktop) canvas = result := by
  induction commands generalizing fuel canvas with
  | nil =>
    rw [List.flatMap_nil, reconstructFrom.eq_def, if_pos rfl]
    simp
  | cons command commands ih =>
    obtain ⟨hfirst, hrest⟩ := List.forall_mem_cons.mp hlength
    obtain ⟨hsolidFirst, hsolidRest⟩ := List.forall_mem_cons.mp hsolid
    rw [List.length_cons] at hfuel
    obtain ⟨fuel, rfl⟩ : ∃ n, fuel = n + 1 := ⟨fuel - 1, by omega⟩
    have hdrop : (command.bytes ++ commands.flatMap OwnedCommand.bytes).drop
        tileCommandHeaderBytes = command.payload ++ commands.flatMap OwnedCommand.bytes := by
      simp [OwnedCommand.bytes, tileCommandHeaderBytes]
    rw [List.flatMap_cons, reconstructFrom, if_neg (bytes_append_ne_nil command _), hdrop,
      parseCommand_bytes hfirst, ok_bind, List.forall_mem_cons, List.foldl_cons]
    dsimp only
    simp only [decode_append hsolidFirst, bind_eq_ok,
      ih (Nat.le_of_succ_le_succ hfuel) hrest hsolidRest]
    constructor
    · rintro ⟨_, hrect, colors, hcolors, haccepts, hresult⟩
      refine ⟨⟨⟨hrect, colors, hcolors⟩, haccepts⟩, ?_⟩
      rw [render, hcolors]
      exact hresult
    · rintro ⟨⟨⟨hrect, colors, hcolors⟩, haccepts⟩, hresult⟩
      rw [render, hcolors] at hresult
      exact ⟨(), hrect, colors, hcolors, haccepts, hresult⟩

end TileCommandStream

end Painting

end Talos.Tiles
