import Talos.Rust.LittleEndian

/-!
# Display records

The wire format of the display stream (`talos_protocol`). A record is a type byte, the
length of its body in four bytes and the body. The decoder reads the fields of the
body at fixed offsets; `none` is an index outside the body.
-/

namespace Talos.Display

open Rust

abbrev Bytes := List UInt8

structure DisplayAtlasRect where
  dstX : UInt32
  dstY : UInt32
  width : UInt32
  height : UInt32
  atlasX : UInt32
  atlasY : UInt32
deriving DecidableEq

inductive DisplayRecord where
  | frameBegin (frameId : UInt64) (width height : UInt32)
  | frameEnd (frameId : UInt64)
  | keyframe (frameId : UInt64) (width height rawLen : UInt32) (payload : Bytes)
  | moveRect (frameId : UInt64) (srcX srcY dstX dstY width height : UInt32)
  | atlasH264 (frameId : UInt64) (flags atlasWidth atlasHeight : UInt32)
      (rects : List DisplayAtlasRect) (payload : Bytes)
  | experimentalAtlasCommands (frameId : UInt64) (atlasWidth atlasHeight : UInt32)
      (rects : List DisplayAtlasRect) (tileCommands : Bytes)
  | experimentalAtlasCommandsChunk (frameId : UInt64)
      (flags chunkIndex chunkCount atlasWidth atlasHeight : UInt32)
      (rects : List DisplayAtlasRect) (tileCommands : Bytes)
deriving DecidableEq

inductive DisplayRecordParseError where
  | tooShort
  | lengthMismatch
  | invalidPayload
deriving DecidableEq

/-! ## The builders -/

/-- `length as u32`. -/
def lengthU32 {α : Type} (items : List α) : UInt32 := UInt32.ofNat items.length

def buildDisplayRecord (messageType : UInt8) (payload : Bytes) : Bytes :=
  messageType :: (u32Bytes (lengthU32 payload) ++ payload)

def DisplayAtlasRect.bytes (rect : DisplayAtlasRect) : Bytes :=
  u32Bytes rect.dstX ++ (u32Bytes rect.dstY ++ (u32Bytes rect.width ++ (u32Bytes rect.height ++
    (u32Bytes rect.atlasX ++ u32Bytes rect.atlasY))))

namespace DisplayRecord

def messageType : DisplayRecord → UInt8
  | .frameBegin .. => 0x01
  | .frameEnd .. => 0x03
  | .keyframe .. => 0x04
  | .moveRect .. => 0x05
  | .atlasH264 .. => 0x06
  | .experimentalAtlasCommands .. => 0x07
  | .experimentalAtlasCommandsChunk .. => 0x08

def body : DisplayRecord → Bytes
  | .frameBegin frameId width height => u64Bytes frameId ++ (u32Bytes width ++ u32Bytes height)
  | .frameEnd frameId => u64Bytes frameId
  | .keyframe frameId width height rawLen payload =>
    u64Bytes frameId ++ (u32Bytes width ++ (u32Bytes height ++ (u32Bytes rawLen ++ payload)))
  | .moveRect frameId srcX srcY dstX dstY width height =>
    u64Bytes frameId ++ (u32Bytes srcX ++ (u32Bytes srcY ++ (u32Bytes dstX ++ (u32Bytes dstY ++
      (u32Bytes width ++ u32Bytes height)))))
  | .atlasH264 frameId flags atlasWidth atlasHeight rects payload =>
    u64Bytes frameId ++ (u32Bytes flags ++ (u32Bytes atlasWidth ++ (u32Bytes atlasHeight ++
      (u32Bytes (lengthU32 rects) ++ (rects.flatMap DisplayAtlasRect.bytes ++ payload)))))
  | .experimentalAtlasCommands frameId atlasWidth atlasHeight rects tileCommands =>
    u64Bytes frameId ++ (u32Bytes atlasWidth ++ (u32Bytes atlasHeight ++
      (u32Bytes (lengthU32 rects) ++ (u32Bytes (lengthU32 tileCommands) ++
        (rects.flatMap DisplayAtlasRect.bytes ++ tileCommands)))))
  | .experimentalAtlasCommandsChunk frameId flags chunkIndex chunkCount atlasWidth atlasHeight
      rects tileCommands =>
      u64Bytes frameId ++ (u32Bytes flags ++ (u32Bytes chunkIndex ++ (u32Bytes chunkCount ++
        (u32Bytes atlasWidth ++ (u32Bytes atlasHeight ++ (u32Bytes (lengthU32 rects) ++
          (u32Bytes (lengthU32 tileCommands) ++
            (rects.flatMap DisplayAtlasRect.bytes ++ tileCommands))))))))

end DisplayRecord

variable (frameId : UInt64)

def buildDisplayFrameBegin (width height : UInt32) : Bytes :=
  buildDisplayRecord 0x01 (u64Bytes frameId ++ u32Bytes width ++ u32Bytes height)

def buildDisplayFrameEnd : Bytes := buildDisplayRecord 0x03 (u64Bytes frameId)

def buildDisplayMoveRect (srcX srcY dstX dstY width height : UInt32) : Bytes :=
  buildDisplayRecord 0x05
    (u64Bytes frameId ++ u32Bytes srcX ++ u32Bytes srcY ++ u32Bytes dstX ++ u32Bytes dstY
      ++ u32Bytes width ++ u32Bytes height)

variable (payload : Bytes)

def buildDisplayKeyframe (width height rawLen : UInt32) (payload : Bytes) : Bytes :=
  buildDisplayRecord 0x04
    (u64Bytes frameId ++ u32Bytes width ++ u32Bytes height ++ u32Bytes rawLen ++ payload)

def buildDisplayAtlasH264 (flags atlasWidth atlasHeight : UInt32) (rects : List DisplayAtlasRect)
    (payload : Bytes) : Bytes :=
  buildDisplayRecord 0x06
    (u64Bytes frameId ++ u32Bytes flags ++ u32Bytes atlasWidth ++ u32Bytes atlasHeight
      ++ u32Bytes (lengthU32 rects) ++ rects.flatMap DisplayAtlasRect.bytes ++ payload)

def buildDisplayExperimentalAtlasCommands (atlasWidth atlasHeight : UInt32)
    (rects : List DisplayAtlasRect) (tileCommands : Bytes) : Bytes :=
  buildDisplayRecord 0x07
    (u64Bytes frameId ++ u32Bytes atlasWidth ++ u32Bytes atlasHeight
      ++ u32Bytes (lengthU32 rects) ++ u32Bytes (lengthU32 tileCommands)
      ++ rects.flatMap DisplayAtlasRect.bytes ++ tileCommands)

def buildDisplayExperimentalAtlasCommandsChunk
    (flags chunkIndex chunkCount atlasWidth atlasHeight : UInt32) (rects : List DisplayAtlasRect)
    (tileCommands : Bytes) : Bytes :=
  buildDisplayRecord 0x08
    (u64Bytes frameId ++ u32Bytes flags ++ u32Bytes chunkIndex ++ u32Bytes chunkCount
      ++ u32Bytes atlasWidth ++ u32Bytes atlasHeight ++ u32Bytes (lengthU32 rects)
      ++ u32Bytes (lengthU32 tileCommands) ++ rects.flatMap DisplayAtlasRect.bytes
      ++ tileCommands)

def DisplayRecord.build : DisplayRecord → Bytes
  | .frameBegin frameId width height => buildDisplayFrameBegin frameId width height
  | .frameEnd frameId => buildDisplayFrameEnd frameId
  | .keyframe frameId width height rawLen payload =>
    buildDisplayKeyframe frameId width height rawLen payload
  | .moveRect frameId srcX srcY dstX dstY width height =>
    buildDisplayMoveRect frameId srcX srcY dstX dstY width height
  | .atlasH264 frameId flags atlasWidth atlasHeight rects payload =>
    buildDisplayAtlasH264 frameId flags atlasWidth atlasHeight rects payload
  | .experimentalAtlasCommands frameId atlasWidth atlasHeight rects tileCommands =>
    buildDisplayExperimentalAtlasCommands frameId atlasWidth atlasHeight rects tileCommands
  | .experimentalAtlasCommandsChunk frameId flags chunkIndex chunkCount atlasWidth atlasHeight
      rects tileCommands =>
      buildDisplayExperimentalAtlasCommandsChunk frameId flags chunkIndex chunkCount atlasWidth
        atlasHeight rects tileCommands

theorem DisplayRecord.build_eq (record : DisplayRecord) :
    record.build = buildDisplayRecord record.messageType record.body := by
  cases record <;> simp only [build, messageType, body, List.append_assoc, buildDisplayFrameBegin,
      buildDisplayFrameEnd, buildDisplayMoveRect, buildDisplayKeyframe, buildDisplayAtlasH264,
      buildDisplayExperimentalAtlasCommands, buildDisplayExperimentalAtlasCommandsChunk]

/-! ## The decoder -/

/-- An error is `throw`, a panic is `none`. -/
abbrev Decoder (α : Type) := ExceptT DisplayRecordParseError Option α

def guardPayload (valid : Bool) : Decoder Unit :=
  if valid then pure () else throw .invalidPayload

def parseDisplayRecord (frame : Bytes) : Decoder (UInt8 × Bytes) := do
  if frame.length < 5 then throw .tooShort
  let payloadLen ← readU32 frame 1
  if frame.length ≠ 5 + payloadLen.toNat then throw .lengthMismatch
  let messageType ← (frame[0]? : Option UInt8)
  let payload ← slice frame 5 frame.length
  pure (messageType, payload)

/-- The check of a rectangle; the last two sums do not wrap when they are reached. -/
def rectRejected (rect : DisplayAtlasRect) (atlasWidth atlasHeight : UInt32) : Bool :=
  rect.width = 0 || rect.height = 0
    || 2 ^ 32 ≤ rect.atlasX.toNat + rect.width.toNat
    || 2 ^ 32 ≤ rect.atlasY.toNat + rect.height.toNat
    || rect.atlasX + rect.width > atlasWidth
    || rect.atlasY + rect.height > atlasHeight

def decodeRect (cursor : ℕ) : Option DisplayAtlasRect := do
  let dstX ← readU32 payload cursor
  let dstY ← readU32 payload (cursor + 4)
  let width ← readU32 payload (cursor + 8)
  let height ← readU32 payload (cursor + 12)
  let atlasX ← readU32 payload (cursor + 16)
  let atlasY ← readU32 payload (cursor + 20)
  pure { dstX, dstY, width, height, atlasX, atlasY }

def decodeRects (payload : Bytes) (atlasWidth atlasHeight : UInt32) :
    ℕ → ℕ → Decoder (List DisplayAtlasRect)
  | 0, _ => pure []
  | count + 1, cursor => do
      let rect ← decodeRect payload cursor
      guardPayload !(rectRejected rect atlasWidth atlasHeight)
      let rects ← decodeRects payload atlasWidth atlasHeight count (cursor + 24)
      pure (rect :: rects)

def decodeAtlasH264 : Decoder DisplayRecord := do
  guardPayload (24 ≤ payload.length)
  let frameId ← readU64 payload 0
  let flags ← readU32 payload 8
  let atlasWidth ← readU32 payload 12
  let atlasHeight ← readU32 payload 16
  let rectCount ← readU32 payload 20
  guardPayload (atlasWidth ≠ 0 ∧ atlasHeight ≠ 0 ∧ rectCount ≠ 0)
  let payloadOffset := 24 + rectCount.toNat * 24
  guardPayload (payloadOffset < payload.length)
  let rects ← decodeRects payload atlasWidth atlasHeight rectCount.toNat 24
  let rest ← slice payload payloadOffset payload.length
  pure (.atlasH264 frameId flags atlasWidth atlasHeight rects rest)

def decodeExperimentalAtlasCommands : Decoder DisplayRecord := do
  guardPayload (24 ≤ payload.length)
  let frameId ← readU64 payload 0
  let atlasWidth ← readU32 payload 8
  let atlasHeight ← readU32 payload 12
  let rectCount ← readU32 payload 16
  let tileCommandsLen ← readU32 payload 20
  guardPayload (atlasWidth ≠ 0 ∧ atlasHeight ≠ 0)
  let commandsOffset := 24 + rectCount.toNat * 24
  let expectedLen := commandsOffset + tileCommandsLen.toNat
  guardPayload (payload.length = expectedLen)
  let rects ← decodeRects payload atlasWidth atlasHeight rectCount.toNat 24
  let tileCommands ← slice payload commandsOffset expectedLen
  pure (.experimentalAtlasCommands frameId atlasWidth atlasHeight rects tileCommands)

def decodeExperimentalAtlasCommandsChunk : Decoder DisplayRecord := do
  guardPayload (36 ≤ payload.length)
  let frameId ← readU64 payload 0
  let flags ← readU32 payload 8
  let chunkIndex ← readU32 payload 12
  let chunkCount ← readU32 payload 16
  let atlasWidth ← readU32 payload 20
  let atlasHeight ← readU32 payload 24
  let rectCount ← readU32 payload 28
  let tileCommandsLen ← readU32 payload 32
  guardPayload (atlasWidth ≠ 0 ∧ atlasHeight ≠ 0 ∧ chunkCount ≠ 0 ∧ chunkIndex < chunkCount)
  let commandsOffset := 36 + rectCount.toNat * 24
  let expectedLen := commandsOffset + tileCommandsLen.toNat
  guardPayload (payload.length = expectedLen)
  let rects ← decodeRects payload atlasWidth atlasHeight rectCount.toNat 36
  let tileCommands ← slice payload commandsOffset expectedLen
  pure (.experimentalAtlasCommandsChunk frameId flags chunkIndex chunkCount atlasWidth atlasHeight
    rects tileCommands)

def decodePayload (messageType : UInt8) (payload : Bytes) : Decoder DisplayRecord :=
  match messageType with
  | 0x01 => do
      guardPayload (payload.length = 16)
      pure (.frameBegin (← readU64 payload 0) (← readU32 payload 8) (← readU32 payload 12))
  | 0x03 => do
      guardPayload (payload.length = 8)
      pure (.frameEnd (← readU64 payload 0))
  | 0x04 => do
      guardPayload (20 ≤ payload.length)
      pure (.keyframe (← readU64 payload 0) (← readU32 payload 8) (← readU32 payload 12)
        (← readU32 payload 16) (← slice payload 20 payload.length))
  | 0x05 => do
      guardPayload (payload.length = 32)
      pure (.moveRect (← readU64 payload 0) (← readU32 payload 8) (← readU32 payload 12)
        (← readU32 payload 16) (← readU32 payload 20) (← readU32 payload 24)
        (← readU32 payload 28))
  | 0x06 => decodeAtlasH264 payload
  | 0x07 => decodeExperimentalAtlasCommands payload
  | 0x08 => decodeExperimentalAtlasCommandsChunk payload
  | _ => throw .invalidPayload

/-- `decode_display_record`. -/
def decodeDisplayRecord (frame : Bytes) : Decoder DisplayRecord := do
  let (messageType, payload) ← parseDisplayRecord frame
  decodePayload messageType payload

/-! ## What the decoder accepts -/

/-- The rectangle is not empty and inside the atlas. -/
structure DisplayAtlasRect.Inside (rect : DisplayAtlasRect) (atlasWidth atlasHeight : UInt32) :
    Prop where
  width : rect.width ≠ 0
  height : rect.height ≠ 0
  right : rect.atlasX.toNat + rect.width.toNat ≤ atlasWidth.toNat
  bottom : rect.atlasY.toNat + rect.height.toNat ≤ atlasHeight.toNat

/-- The decoder's own checks. -/
def DisplayRecord.Valid : DisplayRecord → Prop
  | .frameBegin .. | .frameEnd .. | .keyframe .. | .moveRect .. => True
  | .atlasH264 _ _ atlasWidth atlasHeight rects payload =>
    atlasWidth ≠ 0 ∧ atlasHeight ≠ 0 ∧ rects ≠ [] ∧ payload ≠ [] ∧
      ∀ rect ∈ rects, rect.Inside atlasWidth atlasHeight
  | .experimentalAtlasCommands _ atlasWidth atlasHeight rects _ =>
    atlasWidth ≠ 0 ∧ atlasHeight ≠ 0 ∧ ∀ rect ∈ rects, rect.Inside atlasWidth atlasHeight
  | .experimentalAtlasCommandsChunk _ _ chunkIndex chunkCount atlasWidth atlasHeight rects _ =>
    atlasWidth ≠ 0 ∧ atlasHeight ≠ 0 ∧ chunkIndex < chunkCount ∧
      ∀ rect ∈ rects, rect.Inside atlasWidth atlasHeight

theorem rectRejected_eq_false {rect : DisplayAtlasRect} {atlasWidth atlasHeight : UInt32} :
    rectRejected rect atlasWidth atlasHeight = false ↔ rect.Inside atlasWidth atlasHeight := by
  have hwidth := atlasWidth.toNat_lt
  have hheight := atlasHeight.toNat_lt
  simp only [rectRejected, Bool.or_eq_false_iff, decide_eq_false_iff_not, not_le, gt_iff_lt,
    UInt32.lt_iff_toNat_lt, UInt32.toNat_add, not_lt]
  constructor
  · rintro ⟨⟨⟨⟨⟨hw, hh⟩, hx⟩, hy⟩, hright⟩, hbottom⟩
    rw [Nat.mod_eq_of_lt hx] at hright
    rw [Nat.mod_eq_of_lt hy] at hbottom
    exact ⟨hw, hh, hright, hbottom⟩
  · rintro ⟨hw, hh, hright, hbottom⟩
    have hx : rect.atlasX.toNat + rect.width.toNat < 2 ^ 32 := by omega
    have hy : rect.atlasY.toNat + rect.height.toNat < 2 ^ 32 := by omega
    rw [Nat.mod_eq_of_lt hx, Nat.mod_eq_of_lt hy]
    exact ⟨⟨⟨⟨⟨hw, hh⟩, hx⟩, hy⟩, hright⟩, hbottom⟩

end Talos.Display
