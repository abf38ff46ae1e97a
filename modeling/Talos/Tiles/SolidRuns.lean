import Mathlib.Data.List.Perm.Basic
import Talos.Tiles.HelperDecoder
import Talos.Tiles.Packing
import Talos.Tiles.WireChunks

/-!
# Merging solid commands

`merge_solid_color_row_bands` reads the commands as `parse_owned_commands` does, sorts the
commands of a stream and joins solid ones of a colour that stand side by side in the atlas
and on the desktop. Commands with disjoint rectangles paint in any order, and the run that
stands for two commands paints what they paint.
-/

namespace Talos.Tiles

open Rust TileCommandStream

/-! ## The function -/

namespace OwnedCommand

variable (command next : OwnedCommand)

def isSolid : Bool := command.kind = 2 && command.payload.length = 4

def solidColorKey : UInt32 := if command.isSolid then u32OfBytes command.payload else 0

def bandKey : List UInt32 :=
  [command.atlasY, command.desktopY, command.height, command.kind, command.solidColorKey,
    command.atlasX, command.desktopX]

/-- The condition of the inner loop, on a run that is kept as the command that is written for
it. -/
def extendedBy : Bool :=
  next.isSolid && next.solidColorKey = command.solidColorKey && next.atlasY = command.atlasY &&
    next.desktopY = command.desktopY && next.height = command.height &&
    next.atlasX.toNat = u32Add command.atlasX.toNat command.width.toNat &&
    next.desktopX.toNat = u32Add command.desktopX.toNat command.width.toNat &&
    command.width.toNat + next.width.toNat ≤ 65535

def extend : OwnedCommand :=
  { command with
    wh := packXy (command.width + next.width) command.height
    changedCount :=
      UInt32.ofNat (u32Add command.changedCount.toNat next.changedCount.toNat) }

end OwnedCommand

/-- The two loops over the sorted commands, with the run that is being extended. -/
def mergeRuns : Option OwnedCommand → List OwnedCommand → List OwnedCommand
  | run, [] => run.toList
  | none, next :: rest =>
    if next.isSolid then mergeRuns (some next) rest else next :: mergeRuns none rest
  | some run, next :: rest =>
    if run.extendedBy next then mergeRuns (some (run.extend next)) rest
    else if next.isSolid then run :: mergeRuns (some next) rest
    else run :: next :: mergeRuns none rest

/-- The header that is written when the commands are. -/
def mergedHeader (atlasWidth atlasHeight descriptorCount : UInt32) (merged : List OwnedCommand) :
    StreamHeader where
  atlasWidth
  atlasHeight
  tilesX := max (divCeil atlasWidth tileSize) 1
  commandCount := UInt32.ofNat (min merged.length (2 ^ 32 - 1))
  byteLen := UInt32.ofNat (32 + (merged.flatMap OwnedCommand.bytes).length)
  descriptorCount
  overflow := 0

def mergeSolidColorRowBands (bytes : Bytes) (atlasWidth atlasHeight descriptorCount : UInt32) :
    Except String Bytes := do
  let commands ← parseOwnedCommands bytes
  if commands.length < 2 ∨ (commands.filter OwnedCommand.isSolid).length < 2 then .ok bytes
  else
    let merged := mergeRuns none (commands.mergeSort fun a b => decide (a.bandKey ≤ b.bandKey))
    let output := merged.flatMap OwnedCommand.bytes
    ensure (32 + output.length < 2 ^ 32) "merged tile command stream too large"
    .ok ((mergedHeader atlasWidth atlasHeight descriptorCount merged).bytes ++ output)

/-! ## Painting in any order -/

/-- The command covers a pixel of the atlas, which belongs to a pixel of the desktop. -/
def OwnedCommand.Maps (command : OwnedCommand) (x y x' y' : ℕ) : Prop :=
  command.header.Covers x y ∧ x' = command.desktopX.toNat + (x - command.atlasX.toNat) ∧
    y' = command.desktopY.toNat + (y - command.atlasY.toNat)

/-- The rectangles of two commands in the atlas have no pixel in common. -/
def OwnedCommand.Apart (command other : OwnedCommand) : Prop :=
  ∀ x y, command.header.Covers x y → ¬other.header.Covers x y

instance : Std.Symm OwnedCommand.Apart where
  symm _ _ h x y hother hcommand := h x y hcommand hother

section Painting

variable {stream : TileCommandStream} {desktop : Desktop} {command other run next : OwnedCommand}
  {commands : List OwnedCommand} {x y : ℕ}

theorem covers_iff : command.header.Covers x y ↔
    command.atlasX.toNat ≤ x ∧ x < command.atlasX.toNat + command.width.toNat ∧
      command.atlasY.toNat ≤ y ∧ y < command.atlasY.toNat + command.height.toNat := Iff.rfl

theorem paint_comm (h : command.Apart other) (colors colors' : List UInt32) (canvas : Canvas) :
    other.paint (command.paint canvas colors) colors' =
      command.paint (other.paint canvas colors') colors := by
  funext x y
  by_cases hcommand : command.header.Covers x y
  · simp [OwnedCommand.paint, hcommand, h x y hcommand]
  · simp [OwnedCommand.paint, hcommand]

/-- Commands that are apart paint the same in any order. -/
theorem foldl_render_perm {commands' : List OwnedCommand} (hperm : commands.Perm commands')
    (hapart : commands.Pairwise OwnedCommand.Apart) (canvas : Canvas) :
    commands.foldl (render desktop) canvas = commands'.foldl (render desktop) canvas := by
  refine hperm.foldl_eq' (fun command hcommand other hother canvas => ?_) canvas
  by_cases heq : command = other
  · rw [heq]
  · exact paint_comm (hapart.forall hcommand hother heq) _ _ canvas

theorem validateRect_eq_ok {x y width height limitWidth limitHeight : UInt32} :
    validateRect x y width height limitWidth limitHeight = .ok () ↔
      (0 < width.toNat ∧ 0 < height.toNat) ∧ x.toNat + width.toNat ≤ limitWidth.toNat ∧
        y.toNat + height.toNat ≤ limitHeight.toNat := by
  simp only [validateRect, bind_eq_ok, ensure_eq_ok, exists_const]

/-! ## Runs -/

theorem isSolid_iff : command.isSolid = true ↔ command.kind = 2 ∧ command.payload.length = 4 := by
  simp [OwnedCommand.isSolid]

theorem decode_solid (h : command.isSolid = true) : command.decode desktop command.payload =
    .ok (List.replicate command.pixelCount command.solidColorKey) := by
  obtain ⟨hkind, hlength⟩ := isSolid_iff.mp h
  have hcolor : fetch command.payload 0 = .ok command.solidColorKey := by
    rw [OwnedCommand.solidColorKey, if_pos h, ← u32Bytes_u32OfBytes hlength]
    simp [fetch, readU32, slice, List.take_of_length_le]
  simp only [OwnedCommand.decode, hkind, hcolor, ok_bind]
  refine List.mapM_pure.trans ?_
  rw [List.map_const', List.length_range]
  rfl

theorem render_solid (h : command.isSolid = true) (canvas : Canvas) :
    render desktop canvas command = fun x y =>
      if command.header.Covers x y then command.solidColorKey else canvas x y := by
  funext x y
  rw [render, decode_solid h, OwnedCommand.paint]
  refine if_ctx_congr Iff.rfl (fun hcovers => ?_) fun _ => rfl
  obtain ⟨hleft, hright, htop, hbottom⟩ := covers_iff.mp hcovers
  refine List.getD_replicate _ ?_
  calc (y - command.atlasY.toNat) * command.width.toNat + (x - command.atlasX.toNat)
      < (y - command.atlasY.toNat + 1) * command.width.toNat := by
        rw [Nat.add_one_mul]
        omega
    _ ≤ command.pixelCount := by
        rw [OwnedCommand.pixelCount, Nat.mul_comm command.width.toNat]
        exact Nat.mul_le_mul_right _ (by omega)

theorem halves_packXy {x y : UInt32} (hx : x.toNat < 2 ^ 16) (hy : y.toNat < 2 ^ 16) :
    packXy x y &&& 0xffff = x ∧ packXy x y >>> 16 = y := by
  have hmask : ∀ n : UInt32, (n &&& 0xffff).toNat = n.toNat % 2 ^ 16 := fun n =>
    (UInt32.toNat_and n 0xffff).trans (Nat.and_two_pow_sub_one_eq_mod n.toNat 16)
  have hshift : (y.toNat % 2 ^ 16) <<< 16 % 2 ^ 32 = y.toNat <<< 16 := by
    rw [Nat.shiftLeft_eq, Nat.shiftLeft_eq]
    omega
  have hword : (packXy x y).toNat = y.toNat * 2 ^ 16 + x.toNat := by
    rw [packXy, UInt32.toNat_or, UInt32.toNat_shiftLeft, hmask, hmask, Nat.mod_eq_of_lt hx,
      Nat.or_comm]
    refine (congrArg (· ||| x.toNat) hshift).trans ?_
    rw [← Nat.shiftLeft_add_eq_or_of_lt hx, Nat.shiftLeft_eq]
  constructor <;> apply UInt32.toNat_inj.mp
  · rw [hmask, hword]
    omega
  · rw [UInt32.toNat_shiftRight, hword]
    refine (Nat.shiftRight_eq_div_pow _ 16).trans ?_
    omega

/-- The next command continues the run in the atlas and on the desktop. -/
structure Continues (run next : OwnedCommand) : Prop where
  solid : next.isSolid = true
  color : next.solidColorKey = run.solidColorKey
  atlasY : next.atlasY = run.atlasY
  desktopY : next.desktopY = run.desktopY
  height : next.height = run.height
  atlasX : next.atlasX.toNat = run.atlasX.toNat + run.width.toNat
  desktopX : next.desktopX.toNat = run.desktopX.toNat + run.width.toNat
  width : run.width.toNat + next.width.toNat < 2 ^ 16

theorem header_packed (command : OwnedCommand) : command.header.Packed := Header.ofWords_packed ..

theorem continues_of_extendedBy (h : run.extendedBy next = true) : Continues run next := by
  simp only [OwnedCommand.extendedBy, Bool.and_eq_true, decide_eq_true_eq] at h
  obtain ⟨⟨⟨⟨⟨⟨⟨hsolid, hcolor⟩, hatlasY⟩, hdesktopY⟩, hheight⟩, hatlasX⟩, hdesktopX⟩, hwidth⟩ := h
  rw [u32Add] at hatlasX hdesktopX
  have hx : run.atlasX.toNat < 2 ^ 16 := (header_packed run).atlasX
  have hx' : run.desktopX.toNat < 2 ^ 16 := (header_packed run).desktopX
  exact ⟨hsolid, hcolor, hatlasY, hdesktopY, hheight, by omega, by omega, by omega⟩

namespace Continues

variable (h : Continues run next)

include h

theorem width_extend : (run.extend next).width.toNat = run.width.toNat + next.width.toNat := by
  have hsum : (run.width + next.width).toNat = run.width.toNat + next.width.toNat := by
    rw [UInt32.toNat_add, Nat.mod_eq_of_lt (h.width.trans (by decide))]
  rw [← hsum]
  exact congrArg _ (halves_packXy (hsum ▸ h.width) (header_packed run).height).1

theorem height_extend : (run.extend next).height = run.height := by
  have hsum : (run.width + next.width).toNat = run.width.toNat + next.width.toNat := by
    rw [UInt32.toNat_add, Nat.mod_eq_of_lt (h.width.trans (by decide))]
  exact (halves_packXy (hsum ▸ h.width) (header_packed run).height).2

end Continues

theorem Continues.covers_extend (h : Continues run next) : (run.extend next).header.Covers x y ↔
    run.header.Covers x y ∨ next.header.Covers x y := by
  have hx := h.atlasX
  rw [covers_iff, covers_iff, covers_iff, h.width_extend, h.height_extend, h.atlasY, h.height]
  change run.atlasX.toNat ≤ x ∧ x < run.atlasX.toNat + _ ∧ run.atlasY.toNat ≤ y ∧
    y < run.atlasY.toNat + _ ↔ _
  omega

theorem Continues.maps_extend (h : Continues run next) {x' y' : ℕ} :
    (run.extend next).Maps x y x' y' ↔ run.Maps x y x' y' ∨ next.Maps x y x' y' := by
  have hx := h.atlasX
  have hdesktopX := h.desktopX
  simp only [OwnedCommand.Maps, h.covers_extend, or_and_right, h.atlasY, h.desktopY]
  refine or_congr Iff.rfl (and_congr_right fun hnext => ?_)
  have hleft := (covers_iff.mp hnext).1
  change x' = run.desktopX.toNat + (x - run.atlasX.toNat) ∧
    y' = run.desktopY.toNat + (y - run.atlasY.toNat) ↔ _
  omega

theorem Continues.render_extend (h : Continues run next) (hrun : run.isSolid = true)
    (canvas : Canvas) :
    render desktop canvas (run.extend next) = render desktop (render desktop canvas run) next := by
  rw [render_solid hrun, render_solid h.solid, @render_solid _ (run.extend next) hrun, h.color]
  funext x y
  by_cases hrun : run.header.Covers x y
  · simp [h.covers_extend, hrun]
    rfl
  · simp [h.covers_extend, hrun]
    rfl

/-! ## The merged commands -/

variable (stream desktop) in
/-- A command that the decoder accepts and the stream can hold. -/
structure Good (command : OwnedCommand) : Prop where
  accepts : stream.Accepts desktop command
  length : command.payload.length < 2 ^ 32
  solid : command.kind = 2 → command.payload.length = 4

variable (stream desktop) in
/-- Commands that stand for others: they paint and map the same, and each of them that is
missing saves a header and a colour. -/
structure StandsFor (merged commands : List OwnedCommand) : Prop where
  renders : ∀ canvas : Canvas, merged.foldl (render desktop) canvas =
    commands.foldl (render desktop) canvas
  good : ∀ c ∈ merged, Good stream desktop c
  maps : ∀ x y x' y', (∃ c ∈ merged, c.Maps x y x' y') ↔ ∃ c ∈ commands, c.Maps x y x' y'
  saved : ∃ n, merged.length + n = commands.length ∧
    (merged.flatMap OwnedCommand.bytes).length + 28 * n =
      (commands.flatMap OwnedCommand.bytes).length

variable {merged commands commands' : List OwnedCommand}

theorem standsFor_refl (h : ∀ c ∈ commands, Good stream desktop c) :
    StandsFor stream desktop commands commands :=
  ⟨fun _ => rfl, h, fun _ _ _ _ => Iff.rfl, 0, rfl, rfl⟩

theorem StandsFor.cons (h : StandsFor stream desktop merged commands)
    (hcommand : Good stream desktop command) :
    StandsFor stream desktop (command :: merged) (command :: commands) := by
  obtain ⟨n, hlength, hbytes⟩ := h.saved
  refine ⟨fun _ => h.renders _, List.forall_mem_cons.mpr ⟨hcommand, h.good⟩,
    fun x y x' y' => ?_, n, ?_, ?_⟩
  · simp only [List.exists_mem_cons_iff, h.maps]
  · simp only [List.length_cons]
    omega
  · simp only [List.flatMap_cons, List.length_append]
    omega

theorem StandsFor.trans (h : StandsFor stream desktop merged commands)
    (h' : StandsFor stream desktop commands commands') :
    StandsFor stream desktop merged commands' := by
  obtain ⟨n, hlength, hbytes⟩ := h.saved
  obtain ⟨n', hlength', hbytes'⟩ := h'.saved
  exact ⟨fun canvas => (h.renders canvas).trans (h'.renders canvas), h.good,
    fun x y x' y' => (h.maps x y x' y').trans (h'.maps x y x' y'), n + n', by omega, by omega⟩

theorem Continues.standsFor (h : Continues run next) (hrun : run.isSolid = true)
    (hgood : ∀ c ∈ run :: next :: commands, Good stream desktop c) :
    StandsFor stream desktop (run.extend next :: commands) (run :: next :: commands) := by
  obtain ⟨hrunGood, hnextGood, hrest⟩ := by
    simpa only [List.forall_mem_cons] using hgood
  obtain ⟨⟨hwidth, hheight⟩, -, hbottom⟩ := validateRect_eq_ok.mp hrunGood.accepts.rect
  obtain ⟨-, hright, -⟩ := validateRect_eq_ok.mp hnextGood.accepts.rect
  have hx := h.atlasX
  have hextended : Good stream desktop (run.extend next) := by
    refine ⟨⟨validateRect_eq_ok.mpr ?_, _, @decode_solid _ (run.extend next) hrun⟩,
      hrunGood.length, hrunGood.solid⟩
    rw [h.width_extend, h.height_extend]
    exact ⟨⟨by omega, hheight⟩, by change run.atlasX.toNat + _ ≤ _; omega, hbottom⟩
  refine ⟨fun canvas => ?_, List.forall_mem_cons.mpr ⟨hextended, hrest⟩, fun x y x' y' => ?_, 1,
    rfl, ?_⟩
  · simp only [List.foldl_cons, h.render_extend hrun]
  · simp only [List.exists_mem_cons_iff, h.maps_extend, or_assoc]
  · have hnext := (isSolid_iff.mp h.solid).2
    have hsame : (run.extend next).encodedLen = run.encodedLen := rfl
    simp only [List.flatMap_cons, List.length_append, length_bytes, hsame]
    simp only [OwnedCommand.encodedLen, tileCommandHeaderBytes, hnext]
    omega

theorem mergeRuns_standsFor {run : Option OwnedCommand} (hrun : ∀ r ∈ run, r.isSolid = true)
    (hgood : ∀ c ∈ run.toList ++ commands, Good stream desktop c) :
    StandsFor stream desktop (mergeRuns run commands) (run.toList ++ commands) := by
  induction commands generalizing run with
  | nil =>
    rw [List.append_nil] at hgood ⊢
    cases run <;> exact standsFor_refl hgood
  | cons next rest ih =>
    cases run with
    | none =>
      obtain ⟨hnext, hrest⟩ := List.forall_mem_cons.mp hgood
      rw [mergeRuns]
      split
      next hsolid => exact @ih (some next) (by simpa using hsolid) hgood
      next => exact (@ih none nofun hrest).cons hnext
    | some run =>
      obtain ⟨hfirst, hnext, hrest⟩ := by
        simpa only [Option.toList_some, List.singleton_append, List.forall_mem_cons] using hgood
      rw [mergeRuns]
      split
      next hextended =>
        have hfor := (continues_of_extendedBy hextended).standsFor (hrun run rfl) hgood
        refine (@ih (some (run.extend next)) (fun r hr => ?_) hfor.good).trans hfor
        cases hr
        exact hrun run rfl
      next =>
        split
        next hsolid =>
          exact (@ih (some next) (by simpa using hsolid)
            (List.forall_mem_cons.mpr ⟨hnext, hrest⟩)).cons hfirst
        next => exact ((@ih none nofun hrest).cons hnext).cons hfirst

theorem reconstruct_eq_ok {bytes : Bytes} {atlas : List UInt32}
    (hparse : parseOwnedCommands bytes = .ok commands) (hbytes : stream.bytes = bytes)
    (hsolid : ∀ c ∈ commands, c.kind = 2 → c.payload.length = 4) :
    stream.reconstructAtlasFromStream desktop = .ok atlas ↔
      (∀ c ∈ commands, stream.Accepts desktop c) ∧
        stream.pixels (commands.foldl (render desktop) fun _ _ => 0) = atlas := by
  subst hbytes
  obtain ⟨⟨⟩, hvalid, hcommands⟩ := bind_eq_ok.mp hparse
  obtain ⟨hrest, hlengths⟩ := bytes_of_parseCommands hcommands
  have hfuel := congrArg List.length hrest
  rw [List.length_drop] at hfuel
  have hheader : stream.validateStreamHeader = .ok () := by
    simp only [validateBasicStreamBytes, validateStreamHeader, bind_eq_ok, ensure_eq_ok] at hvalid ⊢
    obtain ⟨_, hlong, _, -, magic, hmagic, _, rfl, version, hversion, _, rfl, byteLen, hbyteLen,
      hsame⟩ := hvalid
    refine ⟨(), hlong, _, hmagic, (), rfl, _, hversion, (), rfl, byteLen, hbyteLen, ?_⟩
    rw [← hsame, UInt32.ofNat_toNat]
  rw [reconstructAtlasFromStream, hheader, ok_bind, hrest]
  simp only [bind_eq_ok, reconstructFrom_eq_ok
    ((length_le_bytes commands).trans (hfuel ▸ Nat.sub_le _ _)) hlengths
    fun c hc hkind => (hsolid c hc hkind).ge]
  constructor
  · rintro ⟨_, ⟨haccepts, rfl⟩, ⟨⟩⟩
    exact ⟨haccepts, rfl⟩
  · rintro ⟨haccepts, rfl⟩
    exact ⟨_, ⟨haccepts, rfl⟩, rfl⟩

/-- The merged stream is accepted and gives the same picture, with no more commands or bytes.
A stream with less than two solid commands is returned as it is, with the count in its header. -/
theorem merged_stream_keeps_picture (stream : TileCommandStream) (desktop : Desktop)
    (descriptorCount : UInt32) {commands : List OwnedCommand} {atlas : List UInt32}
    (hparse : parseOwnedCommands stream.bytes = .ok commands)
    (hsolid : ∀ c ∈ commands, c.kind = 2 → c.payload.length = 4)
    (hapart : commands.Pairwise OwnedCommand.Apart)
    (haccepted : stream.reconstructAtlasFromStream desktop = .ok atlas) :
    ∃ bytes merged, mergeSolidColorRowBands stream.bytes stream.atlasWidth stream.atlasHeight
        descriptorCount = .ok bytes ∧ parseOwnedCommands bytes = .ok merged ∧
      reconstructAtlasFromStream { stream with bytes } desktop = .ok atlas ∧
      merged.length ≤ commands.length ∧ bytes.length ≤ stream.bytes.length ∧
      (fetch stream.bytes 16 = .ok (UInt32.ofNat commands.length) ∨
          2 ≤ (commands.filter OwnedCommand.isSolid).length →
        fetch bytes 16 = .ok (UInt32.ofNat merged.length)) ∧
      ∀ x y x' y', (∃ c ∈ merged, c.Maps x y x' y') ↔ ∃ c ∈ commands, c.Maps x y x' y' := by
  obtain ⟨haccepts, hatlas⟩ := (reconstruct_eq_ok hparse rfl hsolid).mp haccepted
  obtain ⟨hbytes, hsize, haligned, hlengths⟩ := bytes_of_parseOwnedCommands hparse
  rw [mergeSolidColorRowBands, hparse, ok_bind]
  by_cases hfew : commands.length < 2 ∨ (commands.filter OwnedCommand.isSolid).length < 2
  · rw [if_pos hfew]
    refine ⟨_, commands, rfl, hparse, haccepted, le_rfl, le_rfl, ?_, fun _ _ _ _ => Iff.rfl⟩
    rintro (hcount | hsolids)
    · exact hcount
    · have hle := List.length_filter_le OwnedCommand.isSolid commands
      omega
  · rw [if_neg hfew]
    have hperm := commands.mergeSort_perm fun a b => decide (a.bandKey ≤ b.bandKey)
    have hgood : ∀ c ∈ commands.mergeSort fun a b => decide (a.bandKey ≤ b.bandKey),
        Good stream desktop c := fun c hc =>
      have hmem := hperm.mem_iff.mp hc
      ⟨haccepts c hmem, hlengths c hmem, hsolid c hmem⟩
    have hfor := @mergeRuns_standsFor stream desktop _ none nofun hgood
    generalize mergeRuns none _ = merged at hfor ⊢
    obtain ⟨n, hlength, hsaved⟩ := hfor.saved
    have hlength' := hperm.length_eq
    have hsaved' := (hperm.flatMap_right OwnedCommand.bytes).length_eq
    have hcount := length_le_bytes merged
    simp only [Option.toList_none, List.nil_append] at hlength hsaved
    have htotal := congrArg List.length hbytes
    rw [List.length_append, List.length_take] at htotal
    have hlong : 32 ≤ stream.bytes.length := by
      obtain ⟨⟨⟩, hvalid, -⟩ := bind_eq_ok.mp hparse
      exact (length_of_validateBasic hvalid).1
    have hfits : 32 + (merged.flatMap OwnedCommand.bytes).length < 2 ^ 32 := by omega
    have hlen : (mergedHeader stream.atlasWidth stream.atlasHeight descriptorCount
        merged).byteLen.toNat = 32 + (merged.flatMap OwnedCommand.bytes).length := by
      rw [mergedHeader, UInt32.toNat_ofNat', Nat.mod_eq_of_lt hfits]
    have hmerged := parseOwnedCommands_stream hlen (by omega) fun c hc => (hfor.good c hc).length
    dsimp only
    rw [ensure_of hfits, ok_bind]
    refine ⟨_, merged, rfl, ?_⟩
    refine ⟨hmerged, ?_, by omega, ?_, fun _ => ?_, fun x y x' y' => ?_⟩
    · refine (reconstruct_eq_ok hmerged rfl fun c hc => (hfor.good c hc).solid).mpr
        ⟨fun c hc => have h := (hfor.good c hc).accepts; ⟨h.rect, h.decodes⟩, ?_⟩
      rw [← hatlas, foldl_render_perm hperm.symm hapart]
      exact congrArg stream.pixels (hfor.renders _)
    · rw [List.length_append, length_header]
      omega
    · rw [(fetch_header _ _).2.2.1, mergedHeader, min_eq_left (by omega)]
    · rw [hfor.maps]
      simp [hperm.mem_iff]

end Painting

theorem rowStream_apart : List.Pairwise OwnedCommand.Apart
    [⟨2, 0, 0, 0x10001, 1, [1, 2, 3, 255]⟩, ⟨2, 1, 1, 0x10001, 1, [1, 2, 3, 255]⟩] := by
  refine List.pairwise_pair.mpr fun x y hleft hright => ?_
  exact Nat.lt_irrefl x (Nat.lt_of_lt_of_le hleft.2.1 hright.1)

theorem merged_stream_keeps_picture_row :
    ∃ bytes merged, mergeSolidColorRowBands rowStream.bytes 2 1 2 = .ok bytes ∧
      parseOwnedCommands bytes = .ok merged ∧ merged.length ≤ 2 ∧
        reconstructAtlasFromStream ⟨2, 1, bytes⟩ ⟨none, 2, 1⟩ = .ok [0xff030201, 0xff030201] := by
  obtain ⟨bytes, merged, hmerge, hparse, hpicture, hlength, -⟩ :=
    merged_stream_keeps_picture rowStream ⟨none, 2, 1⟩ 2 rfl (by decide) rowStream_apart rfl
  exact ⟨bytes, merged, hmerge, hparse, hlength, hpicture⟩

theorem unmerged_stream_keeps_its_count : parseOwnedCommands miscountedStream.bytes = .ok [] ∧
      miscountedStream.reconstructAtlasFromStream ⟨none, 0, 0⟩ = .ok [0] ∧
      mergeSolidColorRowBands miscountedStream.bytes 1 1 1 = .ok miscountedStream.bytes ∧
      fetch miscountedStream.bytes 16 = .ok 1 :=
  ⟨rfl, rfl, rfl, rfl⟩

/-! ## The picture of a chunk -/

section Chunks

variable {desktop : Desktop} {command : OwnedCommand} {commands : List OwnedCommand} {x y : ℕ}

/-- Among commands that are apart, the one that covers a pixel paints it. -/
theorem foldl_render_of_covers (hapart : commands.Pairwise OwnedCommand.Apart)
    (hmem : command ∈ commands) (hcovers : command.header.Covers x y) (canvas : Canvas) :
    commands.foldl (render desktop) canvas x y = render desktop (fun _ _ => 0) command x y := by
  obtain ⟨before, after, rfl⟩ := List.append_of_mem hmem
  have hperm : (before ++ command :: after).Perm (before ++ after ++ [command]) := by
    rw [List.append_assoc]
    exact (List.perm_append_singleton command after).symm.append_left before
  rw [foldl_render_perm hperm hapart, List.foldl_append]
  simp only [List.foldl_cons, List.foldl_nil, render, OwnedCommand.paint, if_pos hcovers]

theorem pixels_congr (stream : TileCommandStream) {canvas canvas' : Canvas} {i : ℕ}
    (h : canvas (i % stream.atlasWidth.toNat) (i / stream.atlasWidth.toNat) =
      canvas' (i % stream.atlasWidth.toNat) (i / stream.atlasWidth.toNat)) :
    (stream.pixels canvas)[i]? = (stream.pixels canvas')[i]? := by
  by_cases hi : i < stream.atlasWidth.toNat * stream.atlasHeight.toNat
  · simp [pixels, List.getElem?_range hi, h]
  · simp [pixels, hi]

/-- Every chunk of a stream is accepted by the decoder, and shows the pixels of its own commands
as the whole stream does. -/
theorem chunked_stream_keeps_picture (stream : TileCommandStream) (desktop : Desktop)
    (targetBytes : ℕ) {commands : List OwnedCommand} {atlas : List UInt32}
    (hparse : parseOwnedCommands stream.bytes = .ok commands)
    (haligned : ∀ c ∈ commands, c.payload.length % 4 = 0)
    (hsolid : ∀ c ∈ commands, c.kind = 2 → c.payload.length = 4)
    (hapart : commands.Pairwise OwnedCommand.Apart)
    (haccepted : stream.reconstructAtlasFromStream desktop = .ok atlas) :
    ∃ chunks parts, stream.wireChunks targetBytes = .ok chunks ∧ parts.flatten = commands ∧
      List.Forall₂ (fun chunk part => parseOwnedCommands chunk.bytes = .ok part ∧ ∃ picture,
        reconstructAtlasFromStream { stream with bytes := chunk.bytes } desktop = .ok picture ∧
          ∀ command ∈ part, ∀ i, command.header.Covers (i % stream.atlasWidth.toNat)
            (i / stream.atlasWidth.toNat) → picture[i]? = atlas[i]?) chunks parts := by
  by_cases hempty : commands = []
  · subst hempty
    refine ⟨[⟨stream.bytes, []⟩], [[]], ?_, rfl,
      .cons ⟨hparse, atlas, haccepted, fun _ h => by cases h⟩ .nil⟩
    rw [TileCommandStream.wireChunks, hparse, ok_bind, if_pos rfl]
  obtain ⟨-, hsize, -, hpayloads⟩ := bytes_of_parseOwnedCommands hparse
  obtain ⟨haccepts, rfl⟩ := (reconstruct_eq_ok hparse rfl hsolid).mp haccepted
  obtain ⟨chunks, parts, hchunks, hparts, hofs⟩ := @chunksFrom_eq stream targetBytes [] commands
    hsize (fun c hc => ⟨hpayloads c hc, haligned c hc⟩) (.inr (Nat.zero_le 1))
  have hwire : stream.wireChunks targetBytes = .ok chunks := by
    rw [TileCommandStream.wireChunks, hparse, ok_bind, if_neg hempty]
    exact hchunks
  refine ⟨chunks, parts, hwire, hparts, ?_⟩
  refine List.forall₂_iff_get.mpr ⟨hofs.length_eq, fun i hi hi' => ?_⟩
  have hof := hofs.get hi hi'
  set part := parts.get ⟨i, hi'⟩ with hpart
  have hsub : part.Sublist commands := by
    rw [← List.nil_append commands, ← hparts]
    exact List.sublist_flatten_of_mem (List.get_mem ..)
  refine ⟨hof.parses, _, (reconstruct_eq_ok hof.parses rfl fun c hc => hsolid c (hsub.mem hc)).mpr
    ⟨fun c hc => have h := haccepts c (hsub.mem hc); ⟨h.rect, h.decodes⟩, rfl⟩, ?_⟩
  intro command hcommand j hcovers
  refine pixels_congr stream ?_
  rw [foldl_render_of_covers (hapart.sublist hsub) hcommand hcovers,
    foldl_render_of_covers hapart (hsub.mem hcommand) hcovers]

end Chunks

theorem chunked_stream_keeps_picture_row : ∃ chunks parts, rowStream.wireChunks 0 = .ok chunks ∧
    parts.flatten = [⟨2, 0, 0, 0x10001, 1, [1, 2, 3, 255]⟩, ⟨2, 1, 1, 0x10001, 1, [1, 2, 3, 255]⟩] ∧
    List.Forall₂ (fun chunk part => parseOwnedCommands chunk.bytes = .ok part ∧ ∃ picture,
      reconstructAtlasFromStream ⟨2, 1, chunk.bytes⟩ ⟨none, 2, 1⟩ = .ok picture ∧
        ∀ command ∈ part, ∀ i, command.header.Covers (i % 2) (i / 2) →
          picture[i]? = [0xff030201, 0xff030201][i]?) chunks parts :=
  chunked_stream_keeps_picture rowStream ⟨none, 2, 1⟩ 0 rfl (by decide) (by decide) rowStream_apart
    rfl

end Talos.Tiles
