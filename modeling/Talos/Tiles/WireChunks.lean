import Talos.Tiles.Stream

/-!
# Wire chunks

`wire_chunks` divides the commands of a stream into streams of about a target size. The
loop keeps a current chunk that is within the target or holds one command, so every chunk
that it closes is, and what was closed and what is left are the commands of the stream.
-/

namespace Talos.Tiles

open Rust

structure ChunkOf (targetBytes : ℕ) (chunk : TileCommandWireChunk) (part : List OwnedCommand) :
    Prop where
  parses : parseOwnedCommands chunk.bytes = .ok part
  valid : validateBasicStreamBytes chunk.bytes = .ok ()
  counts : part ≠ [] → ∃ count : UInt32, count.toNat = part.length ∧
    fetch chunk.bytes 16 = .ok count ∧ fetch chunk.bytes 24 = .ok count
  size : chunk.bytes.length ≤ max targetBytes 33 ∨ part.length = 1
  copyRects : chunk.copyRects = part.map OwnedCommand.copyRect

def streamSize (commands : List OwnedCommand) : ℕ :=
  32 + (commands.flatMap OwnedCommand.bytes).length

theorem streamSize_append (first second : List OwnedCommand) :
    streamSize (first ++ second) =
      streamSize first + (second.flatMap OwnedCommand.bytes).length := by
  rw [streamSize, streamSize, List.flatMap_append, List.length_append, Nat.add_assoc]

/-- What all commands of an accepted stream have. -/
def Packable (command : OwnedCommand) : Prop :=
  command.payload.length < 2 ^ 32 ∧ command.payload.length % 4 = 0

theorem aligned_of_packable {commands : List OwnedCommand} (h : ∀ c ∈ commands, Packable c) :
    (commands.flatMap OwnedCommand.bytes).length % 4 = 0 := by
  induction commands with
  | nil => rfl
  | cons command commands ih =>
    obtain ⟨hfirst, hrest⟩ := List.forall_mem_cons.mp h
    have haligned := hfirst.2
    have hothers := ih hrest
    rw [List.flatMap_cons, List.length_append, length_bytes, OwnedCommand.encodedLen,
      tileCommandHeaderBytes]
    omega

theorem buildWireChunk_eq (atlasWidth atlasHeight : UInt32) {part : List OwnedCommand}
    (hsize : streamSize part < 2 ^ 32) (hpart : ∀ c ∈ part, Packable c) {targetBytes : ℕ}
    (hne : part ≠ []) (htarget : streamSize part ≤ max targetBytes 33 ∨ part.length ≤ 1) :
    ∃ chunk, buildWireChunk atlasWidth atlasHeight part = .ok chunk ∧
      ChunkOf targetBytes chunk part := by
  have haligned := aligned_of_packable hpart
  have hpos := List.length_pos_iff.mpr hne
  have hlen : (UInt32.ofNat (streamSize part)).toNat = streamSize part := by
    rw [UInt32.toNat_ofNat', Nat.mod_eq_of_lt hsize]
  have hcount : (UInt32.ofNat part.length).toNat = part.length := by
    have hle := length_le_bytes part
    rw [UInt32.toNat_ofNat', Nat.mod_eq_of_lt]
    unfold streamSize at hsize
    omega
  let header : StreamHeader :=
    { atlasWidth, atlasHeight, tilesX := max (divCeil atlasWidth tileSize) 1
      commandCount := UInt32.ofNat part.length, byteLen := UInt32.ofNat (streamSize part)
      descriptorCount := UInt32.ofNat part.length, overflow := 0 }
  have hbuild : buildCommandStreamFromCommands atlasWidth atlasHeight (UInt32.ofNat part.length)
      part = .ok (header.bytes ++ part.flatMap OwnedCommand.bytes) := by
    unfold buildCommandStreamFromCommands
    rw [sum_encodedLen]
    change (ensure (streamSize part < 2 ^ 32) _ >>= fun _ => _) = _
    rw [ensure_of hsize]
    rfl
  obtain ⟨-, -, hcommands, -, hdescriptors⟩ :=
    fetch_header header (part.flatMap OwnedCommand.bytes)
  refine ⟨⟨header.bytes ++ part.flatMap OwnedCommand.bytes, part.map OwnedCommand.copyRect⟩,
    by rw [buildWireChunk, hbuild]; rfl, ?_⟩
  exact
    { parses := parseOwnedCommands_stream hlen haligned fun c hc => (hpart c hc).1
      valid := validateBasic_stream hlen haligned
      counts := fun _ => ⟨_, hcount, hcommands, hdescriptors⟩
      size := by
        rw [List.length_append, length_header, ← streamSize]
        omega
      copyRects := rfl }

theorem chunksFrom_eq (stream : TileCommandStream) {targetBytes : ℕ}
    {current commands : List OwnedCommand} (hsize : streamSize (current ++ commands) < 2 ^ 32)
    (hpackable : ∀ c ∈ current ++ commands, Packable c)
    (hcurrent : streamSize current ≤ max targetBytes 33 ∨ current.length ≤ 1) :
    ∃ chunks parts, stream.chunksFrom (max targetBytes 33) current (streamSize current) commands =
        .ok chunks ∧ parts.flatten = current ++ commands ∧
      List.Forall₂ (ChunkOf targetBytes) chunks parts := by
  induction commands generalizing current with
  | nil =>
    unfold TileCommandStream.chunksFrom
    rw [List.append_nil] at hsize hpackable ⊢
    by_cases hne : current = []
    · exact ⟨[], [], by rw [if_pos hne], by simp [hne], .nil⟩
    · obtain ⟨chunk, hchunk, hof⟩ := buildWireChunk_eq _ _ hsize hpackable hne hcurrent
      refine ⟨[chunk], [current], ?_, by simp, .cons hof .nil⟩
      rw [if_neg hne, hchunk]
      rfl
  | cons command commands ih =>
    have hsplit : current ++ command :: commands = current ++ [command] ++ commands := by simp
    have hall := streamSize_append current (command :: commands)
    have hlonger := streamSize_append (current ++ [command]) commands
    have hsingle := streamSize_append [command] commands
    rw [← hsplit] at hlonger
    rw [List.flatMap_cons, List.length_append] at hall
    have hstep : ∀ first, streamSize (first ++ [command]) < 2 ^ 32 →
        saturatingAdd (streamSize first) command.encodedLen = streamSize (first ++ [command]) := by
      intro first hfirst
      have hcap : (2 : ℕ) ^ 32 < u64Max := by rw [u64Max]; decide
      rw [streamSize_append, List.flatMap_singleton, length_bytes] at hfirst ⊢
      rw [saturatingAdd, min_eq_left (by omega)]
    have honly : streamSize ([command] ++ commands) < 2 ^ 32 := by
      simp only [streamSize, List.flatMap_append, List.flatMap_cons, List.flatMap_nil,
        List.length_append, List.length_nil] at hsize ⊢
      omega
    unfold TileCommandStream.chunksFrom
    rw [hstep current (by omega)]
    by_cases hclose : current ≠ [] ∧ streamSize (current ++ [command]) > max targetBytes 33
    · obtain ⟨chunk, hchunk, hof⟩ := buildWireChunk_eq stream.atlasWidth
        stream.atlasHeight (by omega : streamSize current < 2 ^ 32)
        (fun c hc => hpackable c (List.mem_append_left _ hc)) hclose.1 hcurrent
      obtain ⟨chunks, parts, hchunks, hparts, hofs⟩ := ih honly
        (fun c hc => hpackable c (List.mem_append_right _ hc)) (.inr (by simp))
      refine ⟨chunk :: chunks, current :: parts, ?_, ?_, .cons hof hofs⟩
      · have hstart : saturatingAdd tileCommandStreamHeaderBytes command.encodedLen =
            streamSize [command] := hstep [] (by rw [List.nil_append]; omega)
        rw [if_pos hclose, hchunk, ok_bind, hstart, hchunks]
        rfl
      · rw [List.flatten_cons, hparts, List.singleton_append]
    · rw [if_neg hclose, hsplit]
      rw [hsplit] at hsize hpackable
      refine ih hsize hpackable ?_
      rcases not_and_or.mp hclose with hempty | hsmall
      · rw [not_not.mp hempty]
        exact .inr (by simp)
      · exact .inl (not_lt.mp hsmall)

/-- The chunks of a stream carry its commands in order; a stream without commands is its own
chunk, with its own header. -/
theorem wire_chunks_lossless (stream : TileCommandStream) (targetBytes : ℕ)
    {commands : List OwnedCommand} (hparse : parseOwnedCommands stream.bytes = .ok commands)
    (haligned : ∀ c ∈ commands, c.payload.length % 4 = 0) :
    ∃ chunks parts, stream.wireChunks targetBytes = .ok chunks ∧ parts.flatten = commands ∧
      List.Forall₂ (ChunkOf targetBytes) chunks parts := by
  obtain ⟨hbytes, hsize, -, hpayloads⟩ := bytes_of_parseOwnedCommands hparse
  obtain ⟨_, hvalid, -⟩ := bind_eq_ok.mp hparse
  unfold TileCommandStream.wireChunks
  rw [hparse, ok_bind]
  by_cases hempty : commands = []
  · subst hempty
    refine ⟨_, [[]], if_pos rfl, rfl, .cons ?_ .nil⟩
    have hlength : stream.bytes.length ≤ 32 := by
      rw [hbytes]
      simp
    exact
      { parses := hparse
        valid := hvalid
        counts := fun hne => absurd rfl hne
        size := .inl (hlength.trans (by omega))
        copyRects := rfl }
  · rw [if_neg hempty]
    exact @chunksFrom_eq stream _ [] _ hsize
      (fun c hc => ⟨hpayloads c hc, haligned c hc⟩) (.inr (by simp))

def rowStream : TileCommandStream where
  atlasWidth := 2
  atlasHeight := 1
  bytes := (StreamHeader.mk 2 1 1 2 88 2 0).bytes ++
    (OwnedCommand.mk 2 0 0 0x10001 1 [1, 2, 3, 255]).bytes ++
      (OwnedCommand.mk 2 1 1 0x10001 1 [1, 2, 3, 255]).bytes

theorem wire_chunks_lossless_row :
    (∃ chunks parts, rowStream.wireChunks 0 = .ok chunks ∧
      parts.flatten =
          [⟨2, 0, 0, 0x10001, 1, [1, 2, 3, 255]⟩, ⟨2, 1, 1, 0x10001, 1, [1, 2, 3, 255]⟩] ∧
        List.Forall₂ (ChunkOf 0) chunks parts) ∧
      (rowStream.wireChunks 0).toOption.map List.length = some 2 :=
  ⟨wire_chunks_lossless rowStream 0 rfl (by decide), by decide +kernel⟩

/-- A stream without commands whose header says that it has one. -/
def miscountedStream : TileCommandStream where
  atlasWidth := 1
  atlasHeight := 1
  bytes := (StreamHeader.mk 1 1 1 1 32 1 0).bytes

theorem empty_stream_keeps_its_counts :
    parseOwnedCommands miscountedStream.bytes = .ok [] ∧
      miscountedStream.wireChunks 1000 = .ok [⟨miscountedStream.bytes, []⟩] ∧
        fetch miscountedStream.bytes 16 = .ok 1 :=
  ⟨rfl, rfl, rfl⟩

end Talos.Tiles
