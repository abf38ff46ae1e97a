import Talos.Tiles.Colors
import Talos.Tiles.Stream

/-!
# The Metal decoder of the viewer

The checks of the host on an ATX2 stream and the kernel `decode_atx2`, one thread for each
pixel of the atlas. The arithmetic of the kernel is that of 32-bit words, a shift counting
modulo 32. An index outside a buffer has no value, so a thread returns one exactly if all
its reads stay inside their buffers. What the kernel calls `sx` is `signExtend`.
-/

namespace Talos.Tiles.Metal

open Rust

/-! ## The checks of the host -/

variable (bytes : Bytes)

def validateBasicAtx2Stream : Except String Unit := do
  ensure (tileCommandStreamHeaderBytes ≤ bytes.length ∧ bytes.length % 4 = 0)
    "ATX2 stream is truncated or unaligned"
  ensure ((← fetch bytes 0) = tileCommandStreamMagic) "bad ATX2 stream magic"
  ensure ((← fetch bytes 4) = tileCommandStreamVersion) "unsupported ATX2 stream version"
  ensure ((← fetch bytes 20).toNat = bytes.length) "ATX2 byte length mismatch"

/-- The loop over the commands; each takes at least its header. -/
def wordOffsetsFrom (bytes : Bytes) : ℕ → ℕ → Except String (List UInt32)
  | fuel, offset =>
    if offset < bytes.length then
      match fuel with
      | 0 => .error "out of fuel"
      | fuel + 1 => do
          ensure (offset + tileCommandHeaderBytes ≤ bytes.length)
            "ATX2 command header is truncated"
          let payloadLen ← fetch bytes (offset + 16)
          let payloadEnd := offset + tileCommandHeaderBytes + payloadLen.toNat
          ensure (payloadEnd ≤ bytes.length) "ATX2 command payload is truncated"
          return UInt32.ofNat (offset / 4) :: (← wordOffsetsFrom bytes fuel payloadEnd)
    else .ok []

def parseCommandWordOffsets : Except String (List UInt32) :=
  wordOffsetsFrom bytes bytes.length tileCommandStreamHeaderBytes

/-! ## The kernel -/

structure Params where
  atlasWidth : UInt32
  atlasHeight : UInt32
  desktopWidth : UInt32
  desktopHeight : UInt32

structure Buffers where
  stream : Bytes
  previous : List UInt32

def Buffers.word (buffers : Buffers) (index : UInt32) : Option UInt32 :=
  readU32 buffers.stream (4 * index.toNat)

def Buffers.desktop (buffers : Buffers) (index : UInt32) : Option UInt32 :=
  buffers.previous[index.toNat]?

variable (buffers : Buffers) (params : Params)

def header (base : UInt32) : Option Header := do
  let kind ← buffers.word (base + 0)
  let atlasXy ← buffers.word (base + 1)
  let desktopXy ← buffers.word (base + 2)
  let wh ← buffers.word (base + 3)
  let payloadLen ← buffers.word (base + 4)
  let _changedCount ← buffers.word (base + 5)
  return .ofWords kind atlasXy desktopXy wh payloadLen

/-- The loop over the entries of a sparse delta, with the number of those that are left. -/
def sparse (payload pixel prev : UInt32) : ℕ → UInt32 → Option UInt32
  | 0, _ => some prev
  | left + 1, entry => do
      let sparsePixel ← buffers.word (payload + entry * 2)
      if sparsePixel = pixel then return prev ^^^ (← buffers.word (payload + entry * 2 + 1))
      else sparse payload pixel prev left (entry + 1)

/-- The colour a command gives to the pixel at a place of its rectangle. -/
def color (base : UInt32) (command : Header) (lx ly : UInt32) : Option UInt32 :=
  let pixel := ly * command.width + lx
  let payload := base + 6
  let place := (command.desktopY + ly) * params.desktopWidth + command.desktopX + lx
  match command.kind with
  | 1 => buffers.word (payload + pixel)
  | 2 => buffers.word payload
  | 3 => do
      let prev ← buffers.desktop place
      return prev ^^^ (← buffers.word (payload + pixel))
  | 4 => do
      let prev ← buffers.desktop place
      sparse buffers payload pixel prev (command.payloadLen / 8).toNat 0
  | 5 => do
      let prev ← buffers.desktop place
      let qshift := (← buffers.word payload) &&& 0xff
      let maskWords := (command.width * command.height + 31) / 32
      let maskWord ← buffers.word (payload + 1 + pixel / 32)
      if maskWord &&& (1 <<< (pixel &&& 31)) ≠ 0 then
        let residual ← buffers.word (payload + 1 + maskWords + pixel / 2)
        return applyMaskedQuantDelta prev (halfWord residual pixel) qshift
      else return prev
  | 6 => do
      let chromaWidth := (command.width + 3) / 4
      let yWords := ((command.width * command.height + 1) / 2 + 3) / 4
      let yWord ← buffers.word (payload + 1 + pixel / 8)
      let y4 := (yWord >>> ((pixel &&& 7) * 4)) &&& 0x0f
      let chromaIndex := (ly / 4) * chromaWidth + lx / 4
      let chromaWord ← buffers.word (payload + 1 + yWords + chromaIndex / 4)
      let chromaByte := (chromaWord >>> ((chromaIndex &&& 3) * 8)) &&& 0xff
      return ycocgToBgra ((y4 <<< 4) ||| y4).toInt32 (signExtend (chromaByte &&& 0x0f) 4 * 32)
        (signExtend ((chromaByte >>> 4) &&& 0x0f) 4 * 32)
  | 7 => do
      let word ← buffers.word (payload + pixel / 2)
      return rgb565ToBgra (halfWord word pixel)
  | _ => some 0

/-- The loop over the commands: the first one that covers the pixel gives its colour. -/
def colorAt (x y : UInt32) : List UInt32 → Option UInt32
  | [] => some 0
  | base :: rest => do
      let command ← header buffers base
      if x < command.atlasX ∨ y < command.atlasY ∨ command.atlasX + command.width ≤ x ∨
          command.atlasY + command.height ≤ y then
        colorAt x y rest
      else
        color buffers params base command (x - command.atlasX) (y - command.atlasY)

/-- What a thread writes to its pixel of the atlas, if it has one. -/
def decodeAtx2 (commandOffsets : List UInt32) (gid : UInt32) : Option (Option UInt32) :=
  if gid < params.atlasWidth * params.atlasHeight then
    (colorAt buffers params (gid % params.atlasWidth) (gid / params.atlasWidth)
      commandOffsets).map some
  else some none

/-! ## What the commands must hold -/

def wordAt (index : ℕ) : UInt32 := (readU32 bytes (4 * index)).getD 0

def headerAt (base : ℕ) : Header :=
  .ofWords (wordAt bytes base) (wordAt bytes (base + 1)) (wordAt bytes (base + 2))
    (wordAt bytes (base + 3)) (wordAt bytes (base + 4))

/-- The stream has the words the kind of a command asks for at a pixel of its rectangle, and
the desktop has the pixel if the kind is a delta. -/
def Feeds (desktopWidth desktopHeight base : ℕ) (command : Header) (lx ly : ℕ) : Prop :=
  let words := bytes.length / 4
  let pixel := ly * command.width.toNat + lx
  let pixelCount := command.width.toNat * command.height.toNat
  let onDesktop := ((command.desktopY.toNat + ly) * desktopWidth + command.desktopX.toNat + lx) %
    2 ^ 32 < desktopWidth * desktopHeight
  match command.kind with
  | 1 => (base + 6 + pixel) % 2 ^ 32 < words
  | 2 => base + 6 < words
  | 3 => onDesktop ∧ (base + 6 + pixel) % 2 ^ 32 < words
  | 4 => onDesktop ∧ ∀ entry < command.payloadLen.toNat / 8,
      (∀ earlier < entry, (wordAt bytes (base + 6 + 2 * earlier)).toNat ≠ pixel) →
        base + 6 + 2 * entry +
          (if (wordAt bytes (base + 6 + 2 * entry)).toNat = pixel then 1 else 0) < words
  | 5 => onDesktop ∧ base + 7 + pixel / 32 < words ∧
      (wordAt bytes (base + 7 + pixel / 32) &&& (1 <<< (UInt32.ofNat pixel &&& 31)) ≠ 0 →
        base + 7 + (pixelCount + 31) / 32 + pixel / 2 < words)
  | 6 => base + 7 + ((pixelCount + 1) / 2 + 3) / 4 +
      (ly / 4 * ((command.width.toNat + 3) / 4) + lx / 4) / 4 < words
  | 7 => base + 6 + pixel / 2 < words
  | _ => True

/-! ## Reads inside the buffers -/

section Reads

variable {buffers : Buffers} {params : Params} {bytes : Bytes}

theorem readU32_isSome {offset : ℕ} :
    (readU32 bytes offset).isSome ↔ offset + 4 ≤ bytes.length := by
  simp [readU32, slice]

variable {index : UInt32}

theorem word_isSome : (buffers.word index).isSome ↔ index.toNat < buffers.stream.length / 4 := by
  rw [Buffers.word, readU32_isSome]
  omega

theorem word_eq (h : index.toNat < buffers.stream.length / 4) :
    buffers.word index = some (wordAt buffers.stream index.toNat) := by
  obtain ⟨word, hword⟩ := Option.isSome_iff_exists.1 (word_isSome.2 h)
  rw [hword, wordAt, ← Buffers.word, hword, Option.getD_some]

theorem desktop_isSome :
    (buffers.desktop index).isSome ↔ index.toNat < buffers.previous.length := by
  simp [Buffers.desktop]

theorem isSome_bind_of {α β : Type} {x : Option α} {f : α → Option β} {p : Prop}
    (h : ∀ a, x = some a → ((f a).isSome ↔ p)) : (x >>= f).isSome ↔ x.isSome ∧ p := by
  cases x with
  | none => simp
  | some a => simpa using h a rfl

theorem word_bind {β : Type} {f : UInt32 → Option β} {p : Prop}
    (h : (f (wordAt buffers.stream index.toNat)).isSome ↔ p) :
    (buffers.word index >>= f).isSome ↔ index.toNat < buffers.stream.length / 4 ∧ p := by
  rw [← word_isSome]
  refine isSome_bind_of fun a ha => ?_
  have hlt := word_isSome.1 (Option.isSome_iff_exists.2 ⟨a, ha⟩)
  rw [← h, Option.some.inj (ha.symm.trans (word_eq hlt))]

theorem sparse_isSome {payload pixel prev : UInt32} (left : ℕ) {entry : UInt32}
    (h : payload.toNat + 2 * (entry.toNat + left) < 2 ^ 32) :
    (sparse buffers payload pixel prev left entry).isSome ↔ ∀ k < left,
      (∀ d < k, wordAt buffers.stream (payload.toNat + 2 * (entry.toNat + d)) ≠ pixel) →
        payload.toNat + 2 * (entry.toNat + k) +
          (if wordAt buffers.stream (payload.toNat + 2 * (entry.toNat + k)) = pixel then 1 else 0) <
            buffers.stream.length / 4 := by
  induction left generalizing entry with
  | zero => simp [sparse]
  | succ left ih =>
    have hindex : (payload + entry * 2).toNat = payload.toNat + 2 * entry.toNat := by
      simp only [UInt32.toNat_add, UInt32.toNat_mul, UInt32.reduceToNat]
      omega
    have hnext : (payload + entry * 2 + 1).toNat = payload.toNat + 2 * entry.toNat + 1 := by
      rw [UInt32.toNat_add, hindex]
      simp only [UInt32.reduceToNat]
      omega
    have hentry : (entry + 1).toNat = entry.toNat + 1 := by
      simp only [UInt32.toNat_add, UInt32.reduceToNat]
      omega
    have ih := @ih (entry + 1) (by omega)
    simp only [hentry, Nat.add_assoc, Nat.add_comm 1] at ih
    rw [Nat.forall_lt_succ_left']
    simp only [sparse, Nat.add_zero, Nat.not_lt_zero, false_imp_iff, implies_true, true_imp_iff,
      Nat.forall_lt_succ_left', and_imp]
    refine (word_bind Iff.rfl).trans ?_
    rw [hindex]
    split
    · next heq =>
        have hlast : (do return prev ^^^ (← buffers.word (payload + entry * 2 + 1))).isSome ↔ _ :=
          word_bind (iff_of_true rfl trivial)
        rw [hlast, hnext]
        simp only [heq, not_true_eq_false, ne_eq, false_imp_iff, implies_true, and_true]
        omega
    · next hne => simp [ih, hne, Nat.add_assoc]

theorem color_isSome {base lx ly : UInt32} {command : Header} (hpacked : command.Packed)
    (hstream : buffers.stream.length < 2 ^ 32) (hbase : base.toNat + 6 ≤ buffers.stream.length / 4)
    (hprevious : buffers.previous.length = params.desktopWidth.toNat * params.desktopHeight.toNat)
    (hlx : lx.toNat < command.width.toNat) (hly : ly.toNat < command.height.toNat) :
    (color buffers params base command lx ly).isSome ↔
      Feeds buffers.stream params.desktopWidth.toNat params.desktopHeight.toNat base.toNat command
        lx.toNat ly.toNat := by
  obtain ⟨-, -, hdx, hdy, hwidth, hheight⟩ := hpacked
  have hpixels : ly.toNat * command.width.toNat ≤ 65534 * 65535 :=
    Nat.mul_le_mul (by omega) (by omega)
  have hcount : command.width.toNat * command.height.toNat ≤ 65535 * 65535 :=
    Nat.mul_le_mul (by omega) (by omega)
  have hpixel : (ly * command.width + lx).toNat = ly.toNat * command.width.toNat + lx.toNat := by
    simp only [UInt32.toNat_add, UInt32.toNat_mul]
    omega
  have hpayload : (base + 6).toNat = base.toNat + 6 := by
    simp only [UInt32.toNat_add, UInt32.reduceToNat]
    omega
  have hplace : ((command.desktopY + ly) * params.desktopWidth + command.desktopX + lx).toNat =
      ((command.desktopY.toNat + ly.toNat) * params.desktopWidth.toNat + command.desktopX.toNat +
        lx.toNat) % 2 ^ 32 := by
    simp only [UInt32.toNat_add, UInt32.toNat_mul, Nat.add_mod, Nat.mul_mod, Nat.mod_mod]
  unfold color Feeds
  generalize command.kind = kind
  generalize (command.desktopY + ly) * params.desktopWidth + command.desktopX + lx = place at *
  generalize ly * command.width + lx = pixel at *
  generalize base + 6 = payload at *
  dsimp only
  have hword : (payload + pixel).toNat = (base.toNat + 6 + (ly.toNat * command.width.toNat +
      lx.toNat)) % 2 ^ 32 := by
    rw [UInt32.toNat_add, hpayload, hpixel]
  split
  · rw [word_isSome, hword]
  · rw [word_isSome, hpayload]
  · rw [← hprevious, ← hplace, ← desktop_isSome, ← hword]
    exact isSome_bind_of fun prev _ =>
      (word_bind (iff_of_true rfl trivial)).trans (and_iff_left trivial)
  · rw [← hprevious, ← hplace, ← desktop_isSome]
    refine isSome_bind_of fun prev _ => ?_
    have hentries := command.payloadLen.toNat_lt
    rw [sparse_isSome _ (by simp only [UInt32.toNat_div, UInt32.reduceToNat]; omega)]
    simp only [hpayload, UInt32.toNat_div, UInt32.reduceToNat, Nat.zero_add, ← UInt32.toNat_inj,
      hpixel, ne_eq]
  · rw [← hprevious, ← hplace, ← desktop_isSome]
    refine isSome_bind_of fun prev _ => ?_
    refine (word_bind (word_bind Iff.rfl)).trans ?_
    have hmask : (payload + 1 + pixel / 32).toNat = base.toNat + 7 + pixel.toNat / 32 := by
      simp only [UInt32.toNat_add, UInt32.toNat_div, UInt32.reduceToNat, hpayload, hpixel]
      omega
    have hresidual : (payload + 1 + (command.width * command.height + 31) / 32 + pixel / 2).toNat =
        base.toNat + 7 + (command.width.toNat * command.height.toNat + 31) / 32 +
          pixel.toNat / 2 := by
      simp only [UInt32.toNat_add, UInt32.toNat_mul, UInt32.toNat_div, UInt32.reduceToNat, hpayload,
        hpixel]
      omega
    rw [← hpixel, hmask, hpayload, UInt32.ofNat_toNat]
    split
    · next hbit =>
        rw [word_bind (iff_of_true rfl trivial), hresidual]
        simp only [hbit, ne_eq, not_false_eq_true, true_imp_iff, and_true]
        omega
    · next hbit =>
        simp only [hbit, Option.pure_def, Option.isSome_some, false_imp_iff, and_true]
        omega
  · refine (word_bind (word_bind (iff_of_true rfl trivial))).trans ?_
    have hchroma : ly.toNat / 4 * ((command.width.toNat + 3) / 4) ≤ 16383 * 16384 :=
      Nat.mul_le_mul (by omega) (by omega)
    have hy : (payload + 1 + pixel / 8).toNat = base.toNat + 7 + pixel.toNat / 8 := by
      simp only [UInt32.toNat_add, UInt32.toNat_div, UInt32.reduceToNat, hpayload, hpixel]
      omega
    have hyWords : (((command.width * command.height + 1) / 2 + 3) / 4).toNat =
        ((command.width.toNat * command.height.toNat + 1) / 2 + 3) / 4 := by
      simp only [UInt32.toNat_add, UInt32.toNat_mul, UInt32.toNat_div, UInt32.reduceToNat]
      rw [Nat.mod_eq_of_lt (a := _ * _) (by omega), Nat.mod_eq_of_lt (a := _ * _ + 1) (by omega),
        Nat.mod_eq_of_lt (by omega)]
    have hindex : ((ly / 4 * ((command.width + 3) / 4) + lx / 4) / 4).toNat =
        (ly.toNat / 4 * ((command.width.toNat + 3) / 4) + lx.toNat / 4) / 4 := by
      simp only [UInt32.toNat_add, UInt32.toNat_mul, UInt32.toNat_div, UInt32.reduceToNat]
      rw [Nat.mod_eq_of_lt (a := _ + 3) (by omega), Nat.mod_eq_of_lt (a := _ * _) (by omega),
        Nat.mod_eq_of_lt (by omega)]
    have hinside : pixel.toNat < command.width.toNat * command.height.toNat := by
      rw [hpixel, Nat.mul_comm command.width.toNat]
      exact (Nat.add_lt_add_left hlx _).trans_le (by
        rw [← Nat.succ_mul]
        exact Nat.mul_le_mul_right _ hly)
    have hluma :
        pixel.toNat / 8 ≤ ((command.width.toNat * command.height.toNat + 1) / 2 + 3) / 4 := by
      omega
    rw [hy, UInt32.toNat_add, UInt32.toNat_add, hyWords, hindex]
    simp only [UInt32.toNat_add, UInt32.reduceToNat, hpayload, and_true]
    omega
  · have hindex : (payload + pixel / 2).toNat = base.toNat + 6 + pixel.toNat / 2 := by
      simp only [UInt32.toNat_add, UInt32.toNat_div, UInt32.reduceToNat, hpayload, hpixel]
      omega
    rw [← hpixel, ← hindex]
    exact (word_bind (iff_of_true rfl trivial)).trans (and_iff_left trivial)
  · exact iff_of_true rfl trivial

theorem header_eq {base : UInt32} (hstream : buffers.stream.length < 2 ^ 32)
    (hbase : base.toNat + 6 ≤ buffers.stream.length / 4) :
    header buffers base = some (headerAt buffers.stream base.toNat) := by
  have hword : ∀ k : UInt32, k.toNat < 6 →
      buffers.word (base + k) = some (wordAt buffers.stream (base.toNat + k.toNat)) := by
    intro k hk
    have hadd : (base + k).toNat = base.toNat + k.toNat := by
      rw [UInt32.toNat_add]
      omega
    rw [word_eq (by omega), hadd]
  simp only [header, hword 0 (by decide), hword 1 (by decide), hword 2 (by decide),
    hword 3 (by decide), hword 4 (by decide), hword 5 (by decide)]
  rfl

theorem base_le_of_wordOffsetsFrom {fuel offset : ℕ} {offsets : List UInt32}
    (hbytes : bytes.length < 2 ^ 32) (h : wordOffsetsFrom bytes fuel offset = .ok offsets) :
    ∀ base ∈ offsets, base.toNat + 6 ≤ bytes.length / 4 := by
  induction fuel generalizing offset offsets with
  | zero =>
    rw [wordOffsetsFrom] at h
    split at h <;> cases h
    simp
  | succ fuel ih =>
    rw [wordOffsetsFrom] at h
    split at h
    · obtain ⟨_, hheader, h⟩ := bind_eq_ok.1 h
      obtain ⟨payloadLen, -, h⟩ := bind_eq_ok.1 h
      obtain ⟨_, -, h⟩ := bind_eq_ok.1 h
      obtain ⟨rest, hrest, h⟩ := bind_eq_ok.1 h
      cases h
      have hheader := ensure_eq_ok.1 hheader
      have hbase : (UInt32.ofNat (offset / 4)).toNat = offset / 4 := by
        rw [UInt32.toNat_ofNat']
        omega
      refine List.forall_mem_cons.2 ⟨?_, ih hrest⟩
      rw [hbase]
      simp only [tileCommandHeaderBytes] at hheader
      omega
    · cases h
      simp

theorem colorAt_isSome (hstream : buffers.stream.length < 2 ^ 32)
    (hprevious : buffers.previous.length = params.desktopWidth.toNat * params.desktopHeight.toNat)
    {offsets : List UInt32} (x y : UInt32)
    (hoffsets : ∀ base ∈ offsets, base.toNat + 6 ≤ buffers.stream.length / 4) :
    (colorAt buffers params x y offsets).isSome ↔
      ∀ base, offsets.find? (fun base =>
          (headerAt buffers.stream base.toNat).Covers x.toNat y.toNat) = some base →
        Feeds buffers.stream params.desktopWidth.toNat params.desktopHeight.toNat base.toNat
          (headerAt buffers.stream base.toNat)
          (x.toNat - (headerAt buffers.stream base.toNat).atlasX.toNat)
          (y.toNat - (headerAt buffers.stream base.toNat).atlasY.toNat) := by
  induction offsets with
  | nil => simp [colorAt]
  | cons base rest ih =>
    obtain ⟨hbase, hrest⟩ := List.forall_mem_cons.1 hoffsets
    have hpacked : (headerAt buffers.stream base.toNat).Packed := Header.ofWords_packed ..
    rw [colorAt, header_eq hstream hbase, Option.bind_eq_bind, Option.bind_some]
    generalize hcommand : headerAt buffers.stream base.toNat = command at hpacked
    obtain ⟨hax, hay, hdx, hdy, hw, hh⟩ := hpacked
    have hcovers : (x < command.atlasX ∨ y < command.atlasY ∨ command.atlasX + command.width ≤ x ∨
        command.atlasY + command.height ≤ y) ↔ ¬ command.Covers x.toNat y.toNat := by
      simp only [Header.Covers, UInt32.lt_iff_toNat_lt, UInt32.le_iff_toNat_le, UInt32.toNat_add]
      omega
    split
    · next hout =>
        rw [ih hrest, List.find?_cons_of_neg]
        simpa [hcommand] using hcovers.1 hout
    · next hin =>
        have hin : command.Covers x.toNat y.toNat := not_not.1 (fun h => hin (hcovers.2 h))
        rw [List.find?_cons_of_pos (by simpa [hcommand] using hin)]
        obtain ⟨hx, hx', hy, hy'⟩ := hin
        have hlx := UInt32.toNat_sub_of_le x command.atlasX (UInt32.le_iff_toNat_le.2 hx)
        have hly := UInt32.toNat_sub_of_le y command.atlasY (UInt32.le_iff_toNat_le.2 hy)
        rw [color_isSome ⟨hax, hay, hdx, hdy, hw, hh⟩ hstream hbase hprevious (by omega) (by omega),
          hlx, hly]
        simp [hcommand]

end Reads

/-- The threads of the kernel read inside their buffers exactly if the first command that
covers a pixel of the atlas always has the words and the desktop pixel its kind asks for. -/
theorem metal_reads_in_bounds_iff {bytes : Bytes} {offsets : List UInt32} {params : Params}
    {previous : List UInt32} (hbytes : validateBasicAtx2Stream bytes = .ok ())
    (hoffsets : parseCommandWordOffsets bytes = .ok offsets)
    (hprevious : previous.length = params.desktopWidth.toNat * params.desktopHeight.toNat) :
    (∀ gid, (decodeAtx2 ⟨bytes, previous⟩ params offsets gid).isSome) ↔
      ∀ pixel < params.atlasWidth.toNat * params.atlasHeight.toNat % 2 ^ 32, ∀ base,
        offsets.find? (fun base => (headerAt bytes base.toNat).Covers
            (pixel % params.atlasWidth.toNat) (pixel / params.atlasWidth.toNat)) = some base →
          Feeds bytes params.desktopWidth.toNat params.desktopHeight.toNat base.toNat
            (headerAt bytes base.toNat)
            (pixel % params.atlasWidth.toNat - (headerAt bytes base.toNat).atlasX.toNat)
            (pixel / params.atlasWidth.toNat - (headerAt bytes base.toNat).atlasY.toNat) := by
  have hlength : bytes.length < 2 ^ 32 := by
    obtain ⟨_, -, h⟩ := bind_eq_ok.1 hbytes
    obtain ⟨_, -, h⟩ := bind_eq_ok.1 h
    obtain ⟨_, -, h⟩ := bind_eq_ok.1 h
    obtain ⟨_, -, h⟩ := bind_eq_ok.1 h
    obtain ⟨_, -, h⟩ := bind_eq_ok.1 h
    obtain ⟨byteLen, -, h⟩ := bind_eq_ok.1 h
    exact ensure_eq_ok.1 h ▸ byteLen.toNat_lt
  have hthread := fun x y => @colorAt_isSome ⟨bytes, previous⟩ params hlength hprevious offsets x y
    (base_le_of_wordOffsetsFrom hlength hoffsets)
  constructor
  · intro h pixel hpixel
    have hlt : pixel < 2 ^ 32 := hpixel.trans (Nat.mod_lt _ (by decide))
    have hgid := h (UInt32.ofNat pixel)
    rw [decodeAtx2, if_pos (by
      rwa [UInt32.lt_iff_toNat_lt, UInt32.toNat_mul, UInt32.toNat_ofNat_of_lt' hlt]),
      Option.isSome_map, hthread] at hgid
    simpa only [UInt32.toNat_mod, UInt32.toNat_div, UInt32.toNat_ofNat_of_lt' hlt] using hgid
  · intro h gid
    rw [decodeAtx2]
    split
    · next hgid =>
        rw [UInt32.lt_iff_toNat_lt, UInt32.toNat_mul] at hgid
        rw [Option.isSome_map, hthread]
        simpa only [UInt32.toNat_mod, UInt32.toNat_div] using h gid.toNat hgid
    · rfl

def onePixel (kind : UInt32) (payload : Bytes) : Bytes :=
  let command : OwnedCommand := ⟨kind, 0, 0, 0x10001, 0, payload⟩
  (⟨1, 1, 1, 1, UInt32.ofNat (32 + command.encodedLen), 1, 0⟩ : StreamHeader).bytes ++ command.bytes

theorem metal_reads_in_bounds_solid : parseCommandWordOffsets (onePixel 2 [1, 2, 3, 4]) = .ok [8] ∧
      ∀ gid, (decodeAtx2 ⟨onePixel 2 [1, 2, 3, 4], [0]⟩ ⟨1, 1, 1, 1⟩ [8] gid).isSome := by
  refine ⟨by decide, (metal_reads_in_bounds_iff (by decide) (by decide) rfl).2 ?_⟩
  intro pixel hpixel base hbase
  obtain rfl : pixel = 0 := Nat.lt_one_iff.1 hpixel
  obtain rfl : base = 8 := Option.some.inj (hbase.symm.trans (by decide))
  exact (by decide : 8 + 6 < 60 / 4)

/-- A raw tile without its payload: the host accepts it, and the thread of the pixel reads
behind the stream. -/
theorem metal_reads_behind_stream : validateBasicAtx2Stream (onePixel 1 []) = .ok () ∧
      parseCommandWordOffsets (onePixel 1 []) = .ok [8] ∧
      decodeAtx2 ⟨onePixel 1 [], [0]⟩ ⟨1, 1, 1, 1⟩ [8] 0 = none := by
  decide

end Talos.Tiles.Metal
