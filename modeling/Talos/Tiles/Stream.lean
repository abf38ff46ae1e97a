import Mathlib.Algebra.Order.BigOperators.Group.List
import Talos.Rust.Core
import Talos.Rust.LittleEndian

/-!
# Streams of tile commands

The ATX2 streams of the worker's helper: a header of eight words, then the commands, each
a header of six words and its payload. Reading is modelled on the bytes from the offset
on, and a buffer that is filled from front to back is the concatenation of its parts.
Offsets into a byte string are far below the limit of a `usize`, so their sums are plain.
-/

namespace Talos.Tiles

open Rust

abbrev Bytes := List UInt8

def tileCommandStreamMagic : UInt32 := 0x32585441

def tileCommandStreamVersion : UInt32 := 4

def tileCommandStreamHeaderBytes : ℕ := 32

def tileCommandHeaderBytes : ℕ := 24

def tileSize : UInt32 := 32

/-! ## Commands -/

structure TileCommandCopyRect where
  atlasX : UInt32
  atlasY : UInt32
  desktopX : UInt32
  desktopY : UInt32
  width : UInt32
  height : UInt32
deriving DecidableEq

structure OwnedCommand where
  kind : UInt32
  atlasXy : UInt32
  desktopXy : UInt32
  wh : UInt32
  changedCount : UInt32
  payload : Bytes
deriving DecidableEq

namespace OwnedCommand

variable (command : OwnedCommand)

def atlasX : UInt32 := command.atlasXy &&& 0xffff

def atlasY : UInt32 := command.atlasXy >>> 16

def desktopX : UInt32 := command.desktopXy &&& 0xffff

def desktopY : UInt32 := command.desktopXy >>> 16

def width : UInt32 := command.wh &&& 0xffff

def height : UInt32 := command.wh >>> 16

def encodedLen : ℕ := tileCommandHeaderBytes + command.payload.length

def copyRect : TileCommandCopyRect where
  atlasX := command.atlasX
  atlasY := command.atlasY
  desktopX := command.desktopX
  desktopY := command.desktopY
  width := command.width
  height := command.height

/-- `write_command_header` and the payload behind it. -/
def bytes : Bytes :=
  u32Bytes command.kind ++ (u32Bytes command.atlasXy ++ (u32Bytes command.desktopXy ++
    (u32Bytes command.wh ++ (u32Bytes (UInt32.ofNat command.payload.length) ++
      (u32Bytes command.changedCount ++ command.payload)))))

end OwnedCommand

def packXy (x y : UInt32) : UInt32 := (x &&& (0xffff : UInt32)) ||| ((y &&& 0xffff) <<< 16)

/-- `a.div_ceil(b)`. -/
def divCeil (a b : UInt32) : UInt32 := if a % b = 0 then a / b else a / b + 1

structure StreamHeader where
  atlasWidth : UInt32
  atlasHeight : UInt32
  tilesX : UInt32
  commandCount : UInt32
  byteLen : UInt32
  descriptorCount : UInt32
  overflow : UInt32

/-- `write_stream_header`. -/
def StreamHeader.bytes (header : StreamHeader) : Bytes :=
  u32Bytes tileCommandStreamMagic ++ (u32Bytes tileCommandStreamVersion ++
    (u32Bytes (packXy header.atlasWidth header.atlasHeight) ++
      (u32Bytes (packXy tileSize header.tilesX) ++ (u32Bytes header.commandCount ++
        (u32Bytes header.byteLen ++
          (u32Bytes header.descriptorCount ++ u32Bytes header.overflow))))))

/-! ## Reading a stream -/

/-- `read_u32`. -/
def fetch (bytes : Bytes) (offset : ℕ) : Except String UInt32 :=
  match readU32 bytes offset with
  | none => .error "u32 read exceeds byte stream"
  | some value => .ok value

def ensure (condition : Prop) [Decidable condition] (description : String) : Except String Unit :=
  if condition then .ok () else .error description

def validateBasicStreamBytes (bytes : Bytes) : Except String Unit := do
  ensure (tileCommandStreamHeaderBytes ≤ bytes.length) "tile command stream is shorter than header"
  ensure (bytes.length % 4 = 0) "tile command stream is not 4-byte aligned"
  ensure ((← fetch bytes 0) = tileCommandStreamMagic) "bad ATX2 tile command stream magic"
  ensure ((← fetch bytes 4) = tileCommandStreamVersion)
    "unsupported ATX2 tile command stream version"
  ensure ((← fetch bytes 20).toNat = bytes.length) "tile command stream byte length header mismatch"

/-- The command at the front of the bytes that are left, and the bytes behind it. -/
def parseCommand (rest : Bytes) : Except String (OwnedCommand × Bytes) := do
  ensure (tileCommandHeaderBytes ≤ rest.length) "tile command stream has truncated command header"
  let kind ← fetch rest 0
  let atlasXy ← fetch rest 4
  let desktopXy ← fetch rest 8
  let wh ← fetch rest 12
  let payloadLen ← fetch rest 16
  let changedCount ← fetch rest 20
  ensure (tileCommandHeaderBytes + payloadLen.toNat ≤ rest.length)
    "tile command stream has truncated payload"
  let payload := (rest.drop tileCommandHeaderBytes).take payloadLen.toNat
  .ok (⟨kind, atlasXy, desktopXy, wh, changedCount, payload⟩,
    rest.drop (tileCommandHeaderBytes + payloadLen.toNat))

/-- The loop over the commands; a command takes bytes away, so their number is enough fuel. -/
def parseCommands : ℕ → Bytes → Except String (List OwnedCommand)
  | _, [] => .ok []
  | 0, _ => .error "out of fuel"
  | fuel + 1, rest => do
      let (command, rest) ← parseCommand rest
      return command :: (← parseCommands fuel rest)

def parseOwnedCommands (bytes : Bytes) : Except String (List OwnedCommand) := do
  validateBasicStreamBytes bytes
  parseCommands bytes.length (bytes.drop tileCommandStreamHeaderBytes)

/-! ## Building streams and chunks -/

def buildCommandStreamFromCommands (atlasWidth atlasHeight descriptorCount : UInt32)
    (commands : List OwnedCommand) : Except String Bytes := do
  let byteLen := tileCommandStreamHeaderBytes + (commands.map OwnedCommand.encodedLen).sum
  ensure (byteLen < 2 ^ 32) "tile command stream too large"
  let header : StreamHeader :=
    { atlasWidth, atlasHeight, tilesX := max (divCeil atlasWidth tileSize) 1
      commandCount := UInt32.ofNat commands.length, byteLen := UInt32.ofNat byteLen
      descriptorCount, overflow := 0 }
  .ok (header.bytes ++ commands.flatMap OwnedCommand.bytes)

structure TileCommandWireChunk where
  bytes : Bytes
  copyRects : List TileCommandCopyRect
deriving DecidableEq

def buildWireChunk (atlasWidth atlasHeight : UInt32) (commands : List OwnedCommand) :
    Except String TileCommandWireChunk := do
  let bytes ← buildCommandStreamFromCommands atlasWidth atlasHeight
    (UInt32.ofNat commands.length) commands
  return ⟨bytes, commands.map OwnedCommand.copyRect⟩

structure TileCommandStream where
  atlasWidth : UInt32
  atlasHeight : UInt32
  bytes : Bytes

namespace TileCommandStream

variable (stream : TileCommandStream)

/-- The loop of `wire_chunks`, with the commands of the current chunk and its size. -/
def chunksFrom (targetBytes : ℕ) :
    List OwnedCommand → ℕ → List OwnedCommand → Except String (List TileCommandWireChunk)
  | current, _, [] =>
    if current = [] then .ok []
    else return [← buildWireChunk stream.atlasWidth stream.atlasHeight current]
  | current, currentBytes, command :: commands =>
    if current ≠ [] ∧ saturatingAdd currentBytes command.encodedLen > targetBytes then do
      let chunk ← buildWireChunk stream.atlasWidth stream.atlasHeight current
      return chunk :: (← chunksFrom targetBytes [command]
        (saturatingAdd tileCommandStreamHeaderBytes command.encodedLen) commands)
    else
      chunksFrom targetBytes (current ++ [command])
        (saturatingAdd currentBytes command.encodedLen) commands

def wireChunks (targetBytes : ℕ) : Except String (List TileCommandWireChunk) := do
  let commands ← parseOwnedCommands stream.bytes
  if commands = [] then .ok [⟨stream.bytes, []⟩]
  else
    stream.chunksFrom (max targetBytes (tileCommandStreamHeaderBytes + 1)) []
      tileCommandStreamHeaderBytes commands

end TileCommandStream

/-! ## Parsing inverts building -/

section Parsing

variable {α β : Type} {rest bytes : Bytes} {commands : List OwnedCommand}

theorem bind_eq_ok {x : Except String α} {f : α → Except String β} {b : β} :
    x >>= f = .ok b ↔ ∃ a, x = .ok a ∧ f a = .ok b := by
  cases x with
  | error e => exact ⟨fun h => (nomatch h), fun ⟨_, h, _⟩ => (nomatch h)⟩
  | ok a => exact ⟨fun h => ⟨a, rfl, h⟩, fun ⟨_, ha, h⟩ => Except.ok.inj ha ▸ h⟩

@[simp] theorem ok_bind (a : α) (f : α → Except String β) : Except.ok a >>= f = f a := rfl

variable {condition : Prop}

theorem ensure_eq_ok [Decidable condition] {description : String} {u : Unit} :
    ensure condition description = .ok u ↔ condition := by
  unfold ensure
  split <;> simp [*]

theorem ensure_of [Decidable condition] (h : condition) (description : String) :
    ensure condition description = .ok () := if_pos h

theorem length_bytes (command : OwnedCommand) : command.bytes.length = command.encodedLen := by
  simp [OwnedCommand.bytes, OwnedCommand.encodedLen, tileCommandHeaderBytes]
  omega

theorem parseCommand_words (kind atlasXy desktopXy wh payloadLen changedCount : UInt32) :
    parseCommand (u32Bytes kind ++ (u32Bytes atlasXy ++ (u32Bytes desktopXy ++ (u32Bytes wh ++
        (u32Bytes payloadLen ++ (u32Bytes changedCount ++ rest)))))) =
      if payloadLen.toNat ≤ rest.length then
        .ok (⟨kind, atlasXy, desktopXy, wh, changedCount, rest.take payloadLen.toNat⟩,
          rest.drop payloadLen.toNat)
      else .error "tile command stream has truncated payload" := by
  have hheader : 24 ≤ 4 + (4 + (4 + (4 + (4 + (4 + rest.length))))) := by omega
  have hpayload : payloadLen.toNat + 24 ≤ 4 + (4 + (4 + (4 + (4 + (4 + rest.length))))) ↔
      payloadLen.toNat ≤ rest.length := by omega
  simp only [parseCommand, ensure, fetch, tileCommandHeaderBytes, Nat.add_comm 24,
    List.length_append, length_u32Bytes, if_pos hheader, hpayload, readU32_u32Bytes,
    readU32_skip_u32, drop_u32Bytes, ok_bind, List.drop_zero]
  split <;> rfl

variable {command : OwnedCommand}

theorem parseCommand_bytes (h : command.payload.length < 2 ^ 32) :
    parseCommand (command.bytes ++ rest) = .ok (command, rest) := by
  have hlen : (UInt32.ofNat command.payload.length).toNat = command.payload.length := by
    rw [UInt32.toNat_ofNat', Nat.mod_eq_of_lt h]
  simp only [OwnedCommand.bytes, List.append_assoc, parseCommand_words, hlen]
  rw [if_pos (by simp), List.take_left, List.drop_left]

theorem bytes_of_parseCommand {rest' : Bytes} (h : parseCommand rest = .ok (command, rest')) :
    rest = command.bytes ++ rest' ∧ command.payload.length < 2 ^ 32 := by
  have hlong : 4 * 6 ≤ rest.length := by
    obtain ⟨_, hheader, -⟩ := bind_eq_ok.mp h
    exact ensure_eq_ok.mp hheader
  obtain ⟨words, tail, hwords, rfl⟩ := exists_words hlong
  obtain ⟨kind, atlasXy, desktopXy, wh, payloadLen, changedCount, rfl⟩ :
      ∃ a b c d e f, words = [a, b, c, d, e, f] := by
    match words, hwords with
    | [a, b, c, d, e, f], _ => exact ⟨a, b, c, d, e, f, rfl⟩
  simp only [List.flatMap_cons, List.flatMap_nil, List.append_nil, List.append_assoc,
    parseCommand_words] at h
  split at h
  · rename_i hpayload
    cases h
    have hlen : (tail.take payloadLen.toNat).length = payloadLen.toNat := by
      rw [List.length_take, min_eq_left hpayload]
    constructor
    · simp [OwnedCommand.bytes, hlen]
    · rw [hlen]
      exact payloadLen.toNat_lt
  · cases h

variable {fuel : ℕ}

theorem parseCommands_succ (h : rest ≠ []) : parseCommands (fuel + 1) rest = (do
      let (command, rest) ← parseCommand rest
      return command :: (← parseCommands fuel rest)) := by
  cases rest with
  | nil => exact absurd rfl h
  | cons byte rest => rfl

theorem bytes_append_ne_nil (command : OwnedCommand) (rest : Bytes) :
    command.bytes ++ rest ≠ [] := by
  refine List.ne_nil_of_length_pos ?_
  rw [List.length_append, length_bytes, OwnedCommand.encodedLen, tileCommandHeaderBytes]
  omega

theorem parseCommands_bytes (hfuel : commands.length ≤ fuel)
    (h : ∀ c ∈ commands, c.payload.length < 2 ^ 32) :
    parseCommands fuel (commands.flatMap OwnedCommand.bytes) = .ok commands := by
  induction commands generalizing fuel with
  | nil => cases fuel <;> rfl
  | cons command commands ih =>
    obtain ⟨hfirst, hrest⟩ := List.forall_mem_cons.mp h
    rw [List.length_cons] at hfuel
    obtain ⟨fuel, rfl⟩ : ∃ n, fuel = n + 1 := ⟨fuel - 1, by omega⟩
    rw [List.flatMap_cons, parseCommands_succ (bytes_append_ne_nil command _),
      parseCommand_bytes hfirst, ok_bind]
    dsimp only
    rw [ih (by omega) hrest]
    rfl

theorem bytes_of_parseCommands (h : parseCommands fuel rest = .ok commands) :
    rest = commands.flatMap OwnedCommand.bytes ∧ ∀ c ∈ commands, c.payload.length < 2 ^ 32 := by
  induction fuel generalizing rest commands with
  | zero =>
    cases rest with
    | nil =>
      cases h
      simp
    | cons byte rest => cases h
  | succ fuel ih =>
    by_cases hne : rest = []
    · subst hne
      cases h
      simp
    · rw [parseCommands_succ hne] at h
      obtain ⟨⟨command, rest'⟩, hcommand, h⟩ := bind_eq_ok.mp h
      obtain ⟨others, hothers, h⟩ := bind_eq_ok.mp h
      cases h
      obtain ⟨hbytes, hlen⟩ := bytes_of_parseCommand hcommand
      obtain ⟨hrest, hlens⟩ := ih hothers
      rw [List.flatMap_cons, ← hrest]
      exact ⟨hbytes, List.forall_mem_cons.mpr ⟨hlen, hlens⟩⟩

theorem sum_encodedLen (commands : List OwnedCommand) :
    (commands.map OwnedCommand.encodedLen).sum = (commands.flatMap OwnedCommand.bytes).length := by
  rw [List.length_flatMap]
  simp only [length_bytes]

theorem length_le_bytes (commands : List OwnedCommand) :
    commands.length ≤ (commands.flatMap OwnedCommand.bytes).length := by
  rw [← sum_encodedLen, ← List.length_map OwnedCommand.encodedLen]
  refine List.length_le_sum_of_one_le _ fun n hn => ?_
  obtain ⟨command, -, rfl⟩ := List.mem_map.mp hn
  rw [OwnedCommand.encodedLen, tileCommandHeaderBytes]
  omega

theorem length_of_validateBasic (h : validateBasicStreamBytes bytes = .ok ()) :
    32 ≤ bytes.length ∧ bytes.length % 4 = 0 ∧ bytes.length < 2 ^ 32 := by
  obtain ⟨_, hlong, h⟩ := bind_eq_ok.mp h
  obtain ⟨_, haligned, h⟩ := bind_eq_ok.mp h
  obtain ⟨_, -, h⟩ := bind_eq_ok.mp h
  obtain ⟨_, -, h⟩ := bind_eq_ok.mp h
  obtain ⟨_, -, h⟩ := bind_eq_ok.mp h
  obtain ⟨_, -, h⟩ := bind_eq_ok.mp h
  obtain ⟨byteLen, -, h⟩ := bind_eq_ok.mp h
  refine ⟨ensure_eq_ok.mp hlong, ensure_eq_ok.mp haligned, ?_⟩
  rw [← ensure_eq_ok.mp h]
  exact byteLen.toNat_lt

/-- A stream that is accepted is its header and its commands. -/
theorem bytes_of_parseOwnedCommands (h : parseOwnedCommands bytes = .ok commands) :
    bytes = bytes.take 32 ++ commands.flatMap OwnedCommand.bytes ∧
      32 + (commands.flatMap OwnedCommand.bytes).length < 2 ^ 32 ∧
      (commands.flatMap OwnedCommand.bytes).length % 4 = 0 ∧
      ∀ c ∈ commands, c.payload.length < 2 ^ 32 := by
  obtain ⟨_, hvalid, h⟩ := bind_eq_ok.mp h
  obtain ⟨hrest, hlens⟩ := bytes_of_parseCommands h
  obtain ⟨hlong, haligned, hshort⟩ := length_of_validateBasic hvalid
  have hlength := congrArg List.length hrest
  rw [List.length_drop, tileCommandStreamHeaderBytes] at hlength
  refine ⟨?_, by omega, by omega, hlens⟩
  rw [← hrest, tileCommandStreamHeaderBytes, List.take_append_drop]

section Headers

variable (header : StreamHeader) (body : Bytes)

@[simp] theorem length_header : header.bytes.length = 32 := by
  simp [StreamHeader.bytes]

theorem fetch_header : fetch (header.bytes ++ body) 0 = .ok tileCommandStreamMagic ∧
      fetch (header.bytes ++ body) 4 = .ok tileCommandStreamVersion ∧
      fetch (header.bytes ++ body) 16 = .ok header.commandCount ∧
      fetch (header.bytes ++ body) 20 = .ok header.byteLen ∧
      fetch (header.bytes ++ body) 24 = .ok header.descriptorCount := by
  simp [StreamHeader.bytes, fetch]

variable {header body}

/-- A stream with a header that says its length is valid. -/
theorem validateBasic_stream (hlen : header.byteLen.toNat = 32 + body.length)
    (haligned : body.length % 4 = 0) :
    validateBasicStreamBytes (header.bytes ++ body) = .ok () := by
  have hlength : (header.bytes ++ body).length = 32 + body.length := by
    rw [List.length_append, length_header]
  obtain ⟨hmagic, hversion, -, hbyteLen, -⟩ := fetch_header header body
  simp only [validateBasicStreamBytes, hlength, hmagic, hversion, hbyteLen, ok_bind]
  rw [ensure_of (by rw [tileCommandStreamHeaderBytes]; omega), ensure_of (by omega),
    ensure_of trivial, ensure_of trivial, ensure_of hlen]
  rfl

theorem parseOwnedCommands_stream
    (hlen : header.byteLen.toNat = 32 + (commands.flatMap OwnedCommand.bytes).length)
    (haligned : (commands.flatMap OwnedCommand.bytes).length % 4 = 0)
    (hpayloads : ∀ c ∈ commands, c.payload.length < 2 ^ 32) :
    parseOwnedCommands (header.bytes ++ commands.flatMap OwnedCommand.bytes) = .ok commands := by
  rw [parseOwnedCommands, validateBasic_stream hlen haligned, ok_bind, List.length_append,
    length_header, tileCommandStreamHeaderBytes, List.drop_left' (length_header header),
    parseCommands_bytes (Nat.le_add_left_of_le (length_le_bytes commands)) hpayloads]

end Headers

end Parsing

end Talos.Tiles
