import Mathlib.Data.UInt
import Talos.Display.Compositor
import Talos.Display.RoundTrip
import Talos.Transition.Run

/-!
# The bounds of the framebuffer

The desktop buffer always has the size of the desktop. `validate_rect` adds 32-bit
values that wrap, so a rectangle that it lets pass can lie outside the desktop; without
such a rectangle no row is copied from or to a place outside the buffers.
-/

namespace Talos.Display

open Rust Rust.Routine Transition

/-- The rectangle lies inside a desktop, as unbounded integers. -/
structure Rect.Inside (rect : Rect) (width height : UInt32) : Prop where
  right : rect.x.toNat + rect.width.toNat ≤ width.toNat
  bottom : rect.y.toNat + rect.height.toNat ≤ height.toNat

/-- The sums of the check do not wrap. -/
def Rect.NoWrap (rect : Rect) : Prop :=
  rect.x.toNat + rect.width.toNat < 2 ^ 32 ∧ rect.y.toNat + rect.height.toNat < 2 ^ 32

instance (rect : Rect) : Decidable rect.NoWrap := by unfold Rect.NoWrap; infer_instance

theorem inside_of_rectFits {rect : Rect} {width height : UInt32}
    (hfits : rectFits rect width height = true) (hwrap : rect.NoWrap) :
    rect.Inside width height := by
  simp only [rectFits, Bool.not_eq_true', Bool.or_eq_false_iff, decide_eq_false_iff_not, gt_iff_lt,
    UInt32.lt_iff_toNat_lt, UInt32.toNat_add, not_lt] at hfits
  obtain ⟨⟨_, hright⟩, hbottom⟩ := hfits
  rw [Nat.mod_eq_of_lt hwrap.1] at hright
  rw [Nat.mod_eq_of_lt hwrap.2] at hbottom
  exact ⟨hright, hbottom⟩

/-! ## Rows -/

section Rows

variable {rect : Rect} {stride height : UInt32} {buffer : Bytes}

theorem rowEnd_le (hinside : rect.Inside stride height) {row : ℕ} (hrow : row < rect.height.toNat) :
    pixelOffset stride rect.x (rect.y + UInt32.ofNat row) + rect.width.toNat * 4 ≤
      stride.toNat * height.toNat * 4 := by
  have hheight := height.toNat_lt
  have hbottom := hinside.bottom
  have hright := hinside.right
  have hy : (rect.y + UInt32.ofNat row).toNat = rect.y.toNat + row := by
    rw [UInt32.toNat_add, UInt32.toNat_ofNat', Nat.mod_eq_of_lt (by omega : row < 2 ^ 32),
      Nat.mod_eq_of_lt (by omega)]
  have hrows : (rect.y.toNat + row + 1) * stride.toNat ≤ height.toNat * stride.toNat :=
    Nat.mul_le_mul_right _ (by omega)
  rw [pixelOffset, hy]
  calc ((rect.y.toNat + row) * stride.toNat + rect.x.toNat) * 4 + rect.width.toNat * 4
      = ((rect.y.toNat + row) * stride.toNat + (rect.x.toNat + rect.width.toNat)) * 4 := by ring
    _ ≤ ((rect.y.toNat + row) * stride.toNat + stride.toNat) * 4 := by omega
    _ = (rect.y.toNat + row + 1) * stride.toNat * 4 := by ring
    _ ≤ stride.toNat * height.toNat * 4 := by
        rw [Nat.mul_comm stride.toNat]
        omega

theorem mapM_some {α β : Type} {f : α → Option β} {p : β → Prop} {items : List α}
    (h : ∀ a ∈ items, ∃ b, f a = some b ∧ p b) :
    ∃ results, items.mapM f = some results ∧ results.length = items.length ∧
      ∀ b ∈ results, p b := by
  induction items with
  | nil => exact ⟨[], rfl, rfl, fun _ hb => nomatch hb⟩
  | cons a items ih =>
    obtain ⟨b, hb, hpb⟩ := h a List.mem_cons_self
    obtain ⟨results, hresults, hlength, hall⟩ := ih fun a ha => h a (List.mem_cons_of_mem _ ha)
    refine ⟨b :: results, by simp [List.mapM_cons, hb, hresults], by simp [hlength], ?_⟩
    exact List.forall_mem_cons.mpr ⟨hpb, hall⟩

theorem readRows_some (hinside : rect.Inside stride height)
    (hbuffer : buffer.length = stride.toNat * height.toNat * 4) :
    ∃ rows, readRows buffer stride rect = some rows ∧ rows.length = rect.height.toNat ∧
      ∀ row ∈ rows, row.length = rect.width.toNat * 4 := by
  have hslices : ∀ row ∈ List.range rect.height.toNat, ∃ bytes,
      slice buffer (pixelOffset stride rect.x (rect.y + UInt32.ofNat row))
        (pixelOffset stride rect.x (rect.y + UInt32.ofNat row) + rect.width.toNat * 4) =
          some bytes ∧ bytes.length = rect.width.toNat * 4 := by
    intro row hrow
    have hend := rowEnd_le hinside (List.mem_range.mp hrow)
    rw [← hbuffer] at hend
    refine ⟨_, if_pos ⟨Nat.le_add_right _ _, hend⟩, ?_⟩
    rw [List.length_take, List.length_drop]
    omega
  obtain ⟨rows, hrows, hlength, hall⟩ := mapM_some hslices
  exact ⟨rows, hrows, by rw [hlength, List.length_range], hall⟩

theorem writeRows_some (hinside : rect.Inside stride height)
    (hbuffer : buffer.length = stride.toNat * height.toNat * 4) {rows : List Bytes} {row : ℕ}
    (hrows : ∀ bytes ∈ rows, bytes.length = rect.width.toNat * 4)
    (hcount : row + rows.length ≤ rect.height.toNat) :
    ∃ buffer', writeRows stride rect.x rect.y row rows buffer = some buffer' ∧
      buffer'.length = buffer.length := by
  induction rows generalizing row buffer with
  | nil => exact ⟨buffer, rfl, rfl⟩
  | cons bytes rows ih =>
    obtain ⟨hbytes, hrest⟩ := List.forall_mem_cons.mp hrows
    rw [List.length_cons] at hcount
    have hend := rowEnd_le hinside (by omega : row < rect.height.toNat)
    rw [← hbuffer, ← hbytes] at hend
    have hlength : (buffer.take (pixelOffset stride rect.x (rect.y + UInt32.ofNat row)) ++ bytes ++
        buffer.drop (pixelOffset stride rect.x (rect.y + UInt32.ofNat row) + bytes.length)).length =
          buffer.length := by
      simp only [List.length_append, List.length_take, List.length_drop]
      omega
    obtain ⟨buffer', hwritten, hlength'⟩ := ih (hlength.trans hbuffer) hrest
      (by omega : row + 1 + rows.length ≤ rect.height.toNat)
    refine ⟨buffer', ?_, hlength'.trans hlength⟩
    rw [writeRows, writeRow, if_pos hend]
    exact hwritten

end Rows

/-! ## The queue of the GPU desktop -/

/-- The rectangles of a record that are checked against the desktop. -/
def DisplayRecord.rects : DisplayRecord → List Rect
  | .moveRect _ srcX srcY dstX dstY width height =>
    [⟨srcX, srcY, width, height⟩, ⟨dstX, dstY, width, height⟩]
  | .atlasH264 _ _ _ _ rects _ => rects.map DisplayAtlasRect.target
  | .experimentalAtlasCommands _ _ _ rects _ => rects.map DisplayAtlasRect.target
  | .experimentalAtlasCommandsChunk _ _ _ _ _ _ rects _ => rects.map DisplayAtlasRect.target
  | _ => []

/-- The records that fill the queue of a frame. -/
def DisplayRecord.Queues (frameId : UInt64) : DisplayRecord → Prop
  | .frameEnd id | .experimentalAtlasCommands id .. | .experimentalAtlasCommandsChunk id .. =>
    id = frameId
  | _ => False

/-- The state without the fields that only concern the frame being received and what is left in
the queue. -/
def Compositor.core (s : Compositor) : Compositor :=
  { Compositor.new with
    width := s.width, height := s.height, bgra := s.bgra, accepted := s.accepted
    experimentalMoves := s.experimentalMoves, queued := s.queued }

/-- Only the core matters, and the moves that wait may be queued with a frame. -/
structure Stable (P : Compositor → Prop) : Prop where
  core : ∀ {s}, P s.core ↔ P s
  clear : ∀ {s}, P s → P { s with experimentalMoves := [] }
  queue : ∀ {s frame}, P s → frame.moves = s.experimentalMoves →
    P { s with queued := s.queued ++ [frame] }

section Stable

variable {P Q : Compositor → Prop} {s s' : Compositor} {frameId : UInt64}
  {condition : Bool} {description : String}

theorem yields_ensure {Q : Except String Unit → Compositor → Prop} :
    Yields (ensure condition description) Q s ↔
      (condition = true → Q (.ok ()) s) ∧ (condition = false → Q (.error description) s) := by
  cases condition <;> simp [ensure]

theorem maintains_ensure : Maintains P (ensure condition description) :=
  fun _ h => yields_ensure.mpr ⟨fun _ => h, fun _ => h⟩

theorem yields_ensureFrame {r : Unit → Handler Unit} (hr : Maintains P (r ()))
    (h : s.currentFrameId = some frameId → P s) (hQ : Q s) (hPQ : ∀ {s'}, P s' → Q s') :
    Yields (ensureFrame frameId >>= r) (fun _ s' => Q s') s := by
  simp only [ensureFrame, yields_bind, yields_get, yields_ensure, decide_eq_true_eq]
  exact ⟨fun hcurrent => (hr s (h hcurrent)).mono fun _ _ => hPQ, fun _ => hQ⟩

theorem maintains_validateExperimentalAtlas {atlasWidth atlasHeight : UInt32}
    {rects : List DisplayAtlasRect}
    (hrects : ∀ rect ∈ rects.map DisplayAtlasRect.target, Maintains P (validateRect rect)) :
    Maintains P (validateExperimentalAtlas atlasWidth atlasHeight rects) := by
  refine maintains_ensure.bind fun _ => ?_
  induction rects with
  | nil => exact maintains_pure
  | cons rect rects ih =>
    obtain ⟨hrect, hrest⟩ := List.forall_mem_cons.mp hrects
    exact hrect.bind fun _ => maintains_ensure.bind fun _ => ih hrest

variable (hP : Stable P)
include hP

theorem Stable.congr (h : P s) (heq : s'.core = s.core) : P s' := hP.core.mp (heq ▸ hP.core.mpr h)

theorem Stable.queued {frame : DeferredExperimentalFrame} (h : P s)
    (heq : s'.core = { s with experimentalMoves := [], queued := s.queued ++ [frame] }.core)
    (hmoves : frame.moves = s.experimentalMoves) : P s' :=
  hP.congr (hP.clear (hP.queue h hmoves)) heq

theorem Stable.flush (outside : Outside) :
    Maintains P (flushDeferredExperimentalFrames outside) := by
  intro s h
  simp only [flushDeferredExperimentalFrames, yields_bind, yields_get, yields_set]
  cases (flushFrom outside 0 s.deferredExperimentalFrames s.deferredExperimentalBytes).1 with
  | ok _ => exact hP.congr h rfl
  | error _ => exact hP.congr h rfl

theorem Stable.endExperimentalFrame (outside : Outside) :
    Maintains P (endExperimentalFrame outside frameId) := by
  intro s h
  simp only [Display.endExperimentalFrame, yields_bind, yields_get, yields_ite, yields_ensure]
  refine ⟨fun _ => ⟨fun _ => hP.flush outside s h, fun _ => h⟩, fun _ => ?_⟩
  cases s.experimentalAtlas with
  | none => exact h
  | some atlas =>
    simp only [yields_bind, yields_set]
    exact hP.flush outside _ (hP.queued h rfl rfl)

theorem Stable.applyRecord (frameId : UInt64) {record : DisplayRecord}
    (hrecord : record.Queues frameId)
    (hrects : ∀ rect ∈ record.rects, Maintains P (validateRect rect)) {outside : Outside}
    {recordBytes : ℕ} (h : s.currentFrameId = some frameId → P s) (hQ : Q s)
    (hPQ : ∀ {s'}, P s' → Q s') :
    Yields (applyRecord outside recordBytes record) (fun _ s' => Q s') s := by
  cases record with
  | frameEnd id =>
    cases hrecord
    refine yields_ensureFrame (fun s h => ?_) h hQ hPQ
    simp only [yields_bind, yields_get, yields_ite]
    refine ⟨fun _ => (hP.endExperimentalFrame outside s h).mono fun result s' h' => ?_, fun _ => ?_⟩
    · cases result with
      | ok _ => exact hP.congr (hP.clear h') rfl
      | error _ => exact h'
    · cases outside.presentCached with
      | ok _ => exact hP.congr h rfl
      | error _ => exact h
  | experimentalAtlasCommands id atlasWidth atlasHeight rects tileCommands =>
    cases hrecord
    refine yields_ensureFrame (Maintains.bind ?_ fun _ => Maintains.bind ?_ fun _ => ?_) h hQ hPQ
    · exact maintains_modify fun s h => hP.congr h rfl
    · exact maintains_validateExperimentalAtlas hrects
    · exact maintains_modify fun s h => hP.congr h rfl
  | experimentalAtlasCommandsChunk id flags chunkIndex chunkCount atlasWidth atlasHeight rects
      tileCommands =>
      cases hrecord
      refine yields_ensureFrame (Maintains.bind ?_ fun _ => Maintains.bind ?_ fun _ =>
        Maintains.bind ?_ fun _ => hP.flush outside) h hQ hPQ
      · exact maintains_modify fun s h => hP.congr h rfl
      · exact maintains_validateExperimentalAtlas hrects
      · exact maintains_modify fun s h => hP.queued h rfl rfl
  | _ => cases hrecord

end Stable

/-! ## The handlers -/

/-- The desktop and its buffer have the given size. -/
structure Compositor.Sized (width height : UInt32) (s : Compositor) : Prop where
  width_eq : s.width = width
  height_eq : s.height = height
  sized : s.bgra.length = width.toNat * height.toNat * 4

/-- Besides, every rectangle that passed the check is inside the desktop it was checked for. -/
structure Compositor.Within (width height : UInt32) (s : Compositor) : Prop
    extends s.Sized width height where
  inside : ∀ entry ∈ s.accepted, entry.1.Inside entry.2.1 entry.2.2

/-- The check lets the rectangle pass only if its sums do not wrap. -/
def Rect.Sound (rect : Rect) (width height : UInt32) : Prop :=
  rectFits rect width height = true → rect.NoWrap

section Handlers

variable {width height : UInt32} {s : Compositor}

theorem Compositor.Within.congr {s' : Compositor} (h : s.Within width height)
    (hwidth : s'.width = s.width) (hheight : s'.height = s.height) (hbgra : s'.bgra = s.bgra)
    (haccepted : s'.accepted = s.accepted) : s'.Within width height where
  width_eq := hwidth.trans h.width_eq
  height_eq := hheight.trans h.height_eq
  sized := hbgra ▸ h.sized
  inside := haccepted ▸ h.inside

theorem stable_within : Stable (Compositor.Within width height) where
  core := ⟨fun h => h.congr rfl rfl rfl rfl, fun h => h.congr rfl rfl rfl rfl⟩
  clear h := h.congr rfl rfl rfl rfl
  queue h _ := h.congr rfl rfl rfl rfl

theorem within_validateRect (h : s.Within width height) {rect : Rect}
    (hsound : rect.Sound width height) :
    Yields (validateRect rect) (fun result s' =>
      s'.Within width height ∧ (result = .ok () → rect.Inside width height)) s := by
  simp only [validateRect, yields_bind, yields_get, yields_ensure, yields_set]
  refine ⟨fun hfits => ?_, fun _ => ⟨h, fun hok => by cases hok⟩⟩
  rw [h.width_eq, h.height_eq] at hfits
  have hinside := inside_of_rectFits hfits (hsound hfits)
  refine ⟨⟨⟨h.width_eq, h.height_eq, h.sized⟩, ?_⟩, fun _ => hinside⟩
  intro entry hentry
  rcases List.mem_append.mp hentry with hentry | hentry
  · exact h.inside entry hentry
  · rw [List.mem_singleton.mp hentry, h.width_eq, h.height_eq]
    exact hinside

theorem maintains_validateRect {rect : Rect} (hsound : rect.Sound width height) :
    Maintains (Compositor.Within width height) (validateRect rect) :=
  fun _ h => (within_validateRect h hsound).mono fun _ _ hmid => hmid.1

theorem maintains_paint {target : Rect} (hinside : target.Inside width height) {rows : List Bytes}
    (hcount : rows.length = target.height.toNat)
    (hrows : ∀ row ∈ rows, row.length = target.width.toNat * 4) :
    Maintains (Compositor.Within width height) (paint target rows) := by
  intro s h
  obtain ⟨bgra, hwritten, hlength⟩ := writeRows_some hinside h.sized hrows
    (by omega : 0 + rows.length ≤ target.height.toNat)
  rw [← h.width_eq] at hwritten
  simp only [paint, yields_bind, yields_get, hwritten, yields_lift_some, yields_set]
  exact ⟨⟨h.width_eq, h.height_eq, hlength.trans h.sized⟩, h.inside⟩

theorem maintains_applyMoveRect {srcX srcY dstX dstY w hgt : UInt32}
    (hsource : (Rect.mk srcX srcY w hgt).Sound width height)
    (htarget : (Rect.mk dstX dstY w hgt).Sound width height) :
    Maintains (Compositor.Within width height) (applyMoveRect srcX srcY dstX dstY w hgt) := by
  intro s h
  refine (within_validateRect h hsource).bind ?_ fun _ _ hmid => hmid.1
  rintro _ s₁ ⟨h₁, hsourceInside⟩
  refine (within_validateRect h₁ htarget).bind ?_ fun _ _ hmid => hmid.1
  rintro _ s₂ ⟨h₂, htargetInside⟩
  obtain ⟨rows, hread, hcount, hrows⟩ := readRows_some (hsourceInside rfl) h₂.sized
  rw [← h₂.width_eq] at hread
  simp only [yields_bind, yields_get, hread, yields_lift_some]
  exact maintains_paint (htargetInside rfl) hcount hrows s₂ h₂

section Atlas

variable {atlasWidth atlasHeight : UInt32} {rects : List DisplayAtlasRect}
  (hinAtlas : ∀ rect ∈ rects, rect.Inside atlasWidth atlasHeight)
  (hsound : ∀ rect ∈ rects, rect.target.Sound width height)
include hinAtlas hsound

theorem maintains_copyAtlasRects {atlasBgra : Bytes}
    (hatlas : atlasBgra.length = atlasWidth.toNat * atlasHeight.toNat * 4) :
    Maintains (Compositor.Within width height)
      (copyAtlasRects atlasWidth atlasHeight atlasBgra rects) := by
  induction rects with
  | nil => exact maintains_pure
  | cons rect rects ih =>
    obtain ⟨hrect, hrects⟩ := List.forall_mem_cons.mp hinAtlas
    obtain ⟨hsoundRect, hsoundRects⟩ := List.forall_mem_cons.mp hsound
    intro s h
    refine (within_validateRect h hsoundRect).bind ?_ fun _ _ hmid => hmid.1
    rintro _ s₁ ⟨h₁, htargetInside⟩
    have hsource : rect.inAtlas.Inside atlasWidth atlasHeight := ⟨hrect.right, hrect.bottom⟩
    obtain ⟨rows, hread, hcount, hrows⟩ := readRows_some hsource hatlas
    refine maintains_ensure.bind (fun _ => .lift_bind hread ?_) s₁ h₁
    exact (maintains_paint (htargetInside rfl) hcount hrows).bind fun _ => ih hrects hsoundRects

variable {outside : Outside} (hdecoder : ∀ atlasBgra, outside.decode = .ok (some atlasBgra) →
    atlasBgra.length = atlasWidth.toNat * atlasHeight.toNat * 4)
include hdecoder

theorem maintains_decoded : Maintains (Compositor.Within width height) (match outside.decode with
      | .error e => throw e
      | .ok none => pure ()
      | .ok (some atlasBgra) => copyAtlasRects atlasWidth atlasHeight atlasBgra rects) := by
  rcases hdecode : outside.decode with _ | _ | atlasBgra
  · exact maintains_throw
  · exact maintains_pure
  · exact maintains_copyAtlasRects hinAtlas hsound (hdecoder atlasBgra hdecode)

theorem maintains_applyH264Atlas : Maintains (Compositor.Within width height)
    (applyH264Atlas outside atlasWidth atlasHeight rects) := by
  have hdecoded := maintains_decoded hinAtlas hsound hdecoder
  intro s h
  unfold applyH264Atlas
  simp only [yields_bind, yields_get]
  split
  · cases outside.newDecoder with
    | error e => exact h
    | ok _ => exact hdecoded _ (h.congr rfl rfl rfl rfl)
  · exact hdecoded s h

end Atlas

theorem within_beginFrame (h : s.Within width height) (frameId : UInt64)
    (newWidth newHeight : UInt32) :
    Yields (beginFrame frameId newWidth newHeight) (fun result s' =>
      (result = .ok () → s'.Within newWidth newHeight) ∧
        (result ≠ .ok () → s'.Within width height)) s := by
  simp only [beginFrame, yields_bind, yields_get, yields_ensure, yields_set]
  refine ⟨fun _ => ⟨fun _ => ⟨fun _ => ?_, fun hne => absurd rfl hne⟩,
    fun _ => ⟨fun hok => (by cases hok), fun _ => h⟩⟩,
    fun _ => ⟨fun hok => (by cases hok), fun _ => h⟩⟩
  split
  · exact ⟨⟨rfl, rfl, List.length_replicate⟩, h.inside⟩
  · rename_i hsame
    simp only [not_or, not_not] at hsame
    exact ⟨⟨hsame.1, hsame.2.1, hsame.2.2⟩, h.inside⟩

end Handlers

/-! ## Runs -/

structure Input where
  bytes : Bytes
  outside : Outside

def Input.record (input : Input) : Option DisplayRecord :=
  match (decodeDisplayRecord input.bytes :
      Option (Except DisplayRecordParseError DisplayRecord)) with
  | some (.ok record) => some record
  | _ => none

def Outside.decoded (outside : Outside) : Option Bytes := outside.decode.toOption.join

/-- The decoder returns as many bytes as the atlas has. -/
def Outside.DecodesExactly (outside : Outside) : DisplayRecord → Prop
  | .atlasH264 _ _ atlasWidth atlasHeight _ _ =>
    ∀ atlasBgra ∈ outside.decoded, atlasBgra.length = atlasWidth.toNat * atlasHeight.toNat * 4
  | _ => True

instance (outside : Outside) : (record : DisplayRecord) → Decidable (outside.DecodesExactly record)
  | .atlasH264 .. => inferInstanceAs (Decidable (∀ atlasBgra ∈ outside.decoded, _))
  | .frameBegin .. | .frameEnd .. | .keyframe .. | .moveRect .. | .experimentalAtlasCommands ..
  | .experimentalAtlasCommandsChunk .. => isTrue trivial

variable (state : Option Compositor)

/-- One call of `handle_record`; after a panic there is no state. -/
def step (input : Input) : Option Compositor :=
  match state with
  | none => none
  | some s => (handleRecord input.outside s input.bytes).map Prod.snd

/-- No call panicked, the buffer has the size of the desktop, and all rectangles that passed
the check were inside. -/
def Bounded : Prop :=
  ∃ s, state = some s ∧ s.Within s.width s.height

/-- No rectangle of the record passes the check because a sum wraps. -/
def SoundAt (input : Input) : Prop :=
  ∀ s ∈ state, ∀ record ∈ input.record, ∀ rect ∈ record.rects, rect.Sound s.width s.height

theorem Compositor.Within.self {s : Compositor} {width height : UInt32}
    (h : s.Within width height) : s.Within s.width s.height := by
  rwa [h.width_eq, h.height_eq]

theorem bounded_applyRecord {s : Compositor} (h : s.Within s.width s.height) {outside : Outside}
    {recordBytes : ℕ} {record : DisplayRecord} (hvalid : record.Valid)
    (hdecoder : outside.DecodesExactly record)
    (hsound : ∀ rect ∈ record.rects, rect.Sound s.width s.height) :
    Yields (applyRecord outside recordBytes record)
      (fun _ s' => s'.Within s'.width s'.height) s := by
  cases record with
  | frameBegin frameId width height =>
    refine (within_beginFrame h frameId width height).mono fun result s' hbegun => ?_
    by_cases hok : result = .ok ()
    · exact (hbegun.1 hok).self
    · exact (hbegun.2 hok).self
  | moveRect frameId srcX srcY dstX dstY width height =>
    have hsource := hsound ⟨srcX, srcY, width, height⟩ (by simp [DisplayRecord.rects])
    have htarget := hsound ⟨dstX, dstY, width, height⟩ (by simp [DisplayRecord.rects])
    refine yields_ensureFrame (fun s h => ?_) (fun _ => h) h (·.self)
    simp only [yields_bind, yields_get]
    split
    · refine (maintains_validateRect hsource).bind (fun _ => ?_) s h
      refine (maintains_validateRect htarget).bind fun _ => ?_
      exact maintains_modify fun _ h => h.congr rfl rfl rfl rfl
    · exact maintains_applyMoveRect hsource htarget s h
  | atlasH264 frameId flags atlasWidth atlasHeight rects payload =>
    have hdecoded : ∀ atlasBgra, outside.decode = .ok (some atlasBgra) →
        atlasBgra.length = atlasWidth.toNat * atlasHeight.toNat * 4 := by
      intro atlasBgra hdecode
      exact hdecoder atlasBgra (by simp [Outside.decoded, hdecode, Except.toOption])
    have hatlas := maintains_applyH264Atlas hvalid.2.2.2.2 (List.forall_mem_map.mp hsound) hdecoded
    exact yields_ensureFrame hatlas (fun _ => h) h (·.self)
  | frameEnd frameId | experimentalAtlasCommands frameId | experimentalAtlasCommandsChunk frameId =>
    refine stable_within.applyRecord frameId ?_ (fun rect hrect => ?_) (fun _ => h) h (·.self)
    · rfl
    · exact maintains_validateRect (hsound rect hrect)
  | keyframe frameId width height rawLen payload =>
    simp only [applyRecord, yields_bind, yields_get, yields_ensure, yields_modify]
    refine (within_beginFrame h frameId width height).mono fun result s₁ hbegun => ?_
    cases result with
    | error _ => exact (hbegun.2 (fun h => by cases h)).self
    | ok _ =>
      have h₁ := hbegun.1 rfl
      refine ⟨fun hlength => ?_, fun _ => h₁.self⟩
      exact ⟨⟨rfl, rfl, (of_decide_eq_true hlength).trans h₁.self.sized⟩, h₁.inside⟩

theorem bounded_step {state : Option Compositor} (h : Bounded state) {input : Input}
    (hdecoder : ∀ record ∈ input.record, input.outside.DecodesExactly record)
    (hsound : SoundAt state input) : Bounded (step state input) := by
  obtain ⟨s, rfl, h⟩ := h
  rw [step, handleRecord]
  cases hdecode : (decodeDisplayRecord input.bytes :
      Option (Except DisplayRecordParseError DisplayRecord)) with
  | none => exact absurd hdecode (decodeDisplayRecord_ne_none input.bytes)
  | some result =>
    cases result with
    | error e => exact ⟨s, rfl, h⟩
    | ok record =>
      have hrecord : record ∈ input.record := by simp [Input.record, hdecode]
      have hvalid := (of_decodeDisplayRecord hdecode).1
      obtain ⟨result, s', hexec, h'⟩ := (bounded_applyRecord h hvalid
        (hdecoder record hrecord) (hsound s rfl record hrecord)).exists_exec
      change Bounded (((applyRecord input.outside input.bytes.length record).exec s).map _)
      rw [hexec]
      exact ⟨s', rfl, h'⟩

theorem bounded_new : Bounded (some Compositor.new) :=
  ⟨_, rfl, ⟨rfl, rfl, rfl⟩, fun _ hentry => nomatch hentry⟩

/-- Rectangles whose sums do not wrap are no danger on any desktop. -/
theorem soundAt_of_noWrap {input : Input}
    (h : ∀ record ∈ input.record, ∀ rect ∈ record.rects, rect.NoWrap)
    (state : Option Compositor) : SoundAt state input :=
  fun _ _ record hrecord rect hrect _ => h record hrecord rect hrect

/-- While no wrapping rectangle passes the check, in every state reached the buffer has the size
of the desktop, all rectangles that passed were inside it, and no copy went outside a buffer. -/
theorem framebuffer_bounded_of_sound (inputs : List Input)
    (hdecoder : ∀ input ∈ inputs, ∀ record ∈ input.record, input.outside.DecodesExactly record)
    (hsound : along step SoundAt (some Compositor.new) inputs) :
    ∀ earlier rest, inputs = earlier ++ rest →
      Bounded (run step (some Compositor.new) earlier) := by
  rintro earlier rest rfl
  rw [along_append] at hsound
  have hdecoded : along step (fun _ input => ∀ record ∈ input.record,
      input.outside.DecodesExactly record) (some Compositor.new) earlier :=
    along_of_forall fun input hinput _ => hdecoder input (List.mem_append_left rest hinput)
  exact run_invariant_along (fun _ _ h hboth => bounded_step h hboth.1 hboth.2) bounded_new
    (along_and.mpr ⟨hdecoded, hsound.1⟩)

def Outside.quiet : Outside where
  newDecoder := .ok ()
  decode := .ok none
  presentCached := .ok ()
  presentExperimental := fun _ => .ok none

def smallFrame : List Input :=
  [⟨buildDisplayFrameBegin 7 4 4, .quiet⟩,
    ⟨buildDisplayMoveRect 7 0 0 3 3 1 1, .quiet⟩,
    ⟨buildDisplayAtlasH264 7 0 1 1 [⟨2, 2, 1, 1, 0, 0⟩] [1],
      { Outside.quiet with decode := .ok (some [1, 2, 3, 4]) }⟩,
    ⟨buildDisplayFrameEnd 7, .quiet⟩]

/-- The source of the move begins in the last column that 32 bits can name; the sum of the check
wraps to 1. -/
def wrappedMove : List Input :=
  [⟨buildDisplayFrameBegin 7 4 4, .quiet⟩,
    ⟨buildDisplayMoveRect 7 (2 ^ 32 - 1) 0 0 0 2 1, .quiet⟩]

theorem framebuffer_bounded_of_sound_small_frame :
    Bounded (run step (some Compositor.new) smallFrame) := by
  have hdecoder : ∀ input ∈ smallFrame, ∀ record ∈ input.record,
      input.outside.DecodesExactly record := by decide +kernel
  have hnoWrap : ∀ input ∈ smallFrame, ∀ record ∈ input.record, ∀ rect ∈ record.rects,
      rect.NoWrap := by decide +kernel
  exact framebuffer_bounded_of_sound smallFrame hdecoder
    (along_of_forall fun input hinput => soundAt_of_noWrap (hnoWrap input hinput)) smallFrame []
    (List.append_nil _).symm

/-- A move with a wrapping rectangle passes the check and the copy of its first row panics. -/
theorem wrapped_move_leaves_bounds :
    (∀ input ∈ wrappedMove, ∀ record ∈ input.record, input.outside.DecodesExactly record) ∧
      ¬Bounded (run step (some Compositor.new) wrappedMove) := by
  refine ⟨by decide +kernel, ?_⟩
  have hpanic : (run step (some Compositor.new) wrappedMove).isNone = true := by decide +kernel
  rintro ⟨s, hrun, -⟩
  rw [hrun] at hpanic
  exact nomatch hpanic

end Talos.Display
