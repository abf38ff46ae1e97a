import Talos.Display.Bounds

/-!
# The moves of a frame

The helper sends the moves of a frame before its atlas commands. The compositor decides
by `experimental_frame` whether a move goes to the queue of the GPU desktop, and that
flag is set only by the atlas commands, so the moves go to the CPU buffer and the queued
frames carry none.
-/

namespace Talos.Display

open Rust Rust.Routine Transition

structure AtlasChunk where
  flags : UInt32
  chunkIndex : UInt32
  chunkCount : UInt32
  atlasWidth : UInt32
  atlasHeight : UInt32
  rects : List DisplayAtlasRect
  tileCommands : Bytes

/-- The atlas of a frame comes in one record or in chunks, of which there is at least one. -/
inductive FrameAtlas where
  | commands (atlasWidth atlasHeight : UInt32) (rects : List DisplayAtlasRect)
      (tileCommands : Bytes)
  | chunks (first : AtlasChunk) (rest : List AtlasChunk)

structure SentFrame where
  frameId : UInt64
  width : UInt32
  height : UInt32
  moves : List ExperimentalMoveRect
  atlas : FrameAtlas

variable (frameId : UInt64) (move : ExperimentalMoveRect)

def ExperimentalMoveRect.record : DisplayRecord :=
  .moveRect frameId move.srcX move.srcY move.dstX move.dstY move.width move.height

def AtlasChunk.record (chunk : AtlasChunk) : DisplayRecord :=
  .experimentalAtlasCommandsChunk frameId chunk.flags chunk.chunkIndex chunk.chunkCount
    chunk.atlasWidth chunk.atlasHeight chunk.rects chunk.tileCommands

def FrameAtlas.records : FrameAtlas → List DisplayRecord
  | .commands atlasWidth atlasHeight rects tileCommands =>
    [.experimentalAtlasCommands frameId atlasWidth atlasHeight rects tileCommands]
  | .chunks first rest => (first :: rest).map (AtlasChunk.record frameId)

variable (frame : SentFrame)

def SentFrame.records : List DisplayRecord :=
  .frameBegin frame.frameId frame.width frame.height ::
    frame.moves.map (ExperimentalMoveRect.record frame.frameId) ++
      (frame.atlas.records frame.frameId ++ [.frameEnd frame.frameId])

def ExperimentalMoveRect.source : Rect :=
  { x := move.srcX, y := move.srcY, width := move.width, height := move.height }

def ExperimentalMoveRect.target : Rect :=
  { x := move.dstX, y := move.dstY, width := move.width, height := move.height }

/-- A move is valid if it is not empty and both its rectangles are inside the desktop. -/
structure ExperimentalMoveRect.Valid (width height : UInt32) (move : ExperimentalMoveRect) :
    Prop where
  width_ne : move.width ≠ 0
  height_ne : move.height ≠ 0
  source : move.source.Inside width height
  target : move.target.Inside width height

def SentFrame.Accepted : Prop :=
  frame.width ≠ 0 ∧ frame.height ≠ 0 ∧ frame.width.toNat * frame.height.toNat * 4 < 2 ^ 32

/-- The frame begins a frame: `begin_frame` accepts it, or at least the compositor is not in the
middle of an earlier frame with this id. -/
def SentFrame.Begins (s : Compositor) : Prop :=
  frame.Accepted ∨ s.currentFrameId ≠ some frame.frameId

/-- The first of the queued frames has all moves and the others have none. -/
def Carry (moves : List ExperimentalMoveRect) : List DeferredExperimentalFrame → Prop
  | [] => moves = []
  | first :: rest => first.moves = moves ∧ ∀ later ∈ rest, later.moves = []

/-- What the inputs make the compositor queue carries the moves of the frame. -/
def MovesCarried (s : Compositor) (inputs : List Input) : Prop :=
  ∃ s' frames, run step (some s) inputs = some s' ∧ s'.queued = s.queued ++ frames ∧
    Carry frame.moves frames

/-! ## The state while the frame is received -/

/-- Since the queue was `before` only frames without moves were queued, and no move waits. -/
structure Moveless (before : List DeferredExperimentalFrame) (s : Compositor) : Prop where
  waiting : s.experimentalMoves = []
  queued : ∃ frames, s.queued = before ++ frames ∧ ∀ frame ∈ frames, frame.moves = []

/-- The frame was not begun and nothing was queued, or what was queued has no moves. -/
def Received (before : List DeferredExperimentalFrame) (s : Compositor) : Prop :=
  (s.currentFrameId ≠ some frameId ∧ s.queued = before) ∨ Moveless before s

/-- The same before the first atlas record; then the moves find a buffer of the right size. -/
def Begun (before : List DeferredExperimentalFrame) (s : Compositor) : Prop :=
  (s.currentFrameId ≠ some frame.frameId ∧ s.queued = before) ∨
    Moveless before s ∧ s.experimentalFrame = false ∧ s.Sized frame.width frame.height

section Handlers

variable {frame : SentFrame} {before : List DeferredExperimentalFrame} {s : Compositor}

theorem Begun.received (h : Begun frame before s) : Received frame.frameId before s :=
  h.imp_right And.left

theorem stable_moveless : Stable (Moveless before) where
  core := ⟨fun h => ⟨h.waiting, h.queued⟩, fun h => ⟨h.waiting, h.queued⟩⟩
  clear h := ⟨rfl, h.queued⟩
  queue {s queued} h hmoves := by
    obtain ⟨frames, hframes, hnone⟩ := h.queued
    refine ⟨h.waiting, frames ++ [queued], by rw [hframes, List.append_assoc], ?_⟩
    simpa [or_imp, forall_and, hmoves.trans h.waiting] using hnone

theorem begun_beginFrame (hbegins : frame.Begins s) :
    Yields (beginFrame frame.frameId frame.width frame.height)
      (fun _ s' => Begun frame s.queued s') s := by
  have hrefused : ¬frame.Accepted → Begun frame s.queued s := fun hnot =>
    .inl ⟨hbegins.resolve_left hnot, rfl⟩
  simp only [beginFrame, yields_bind, yields_get, yields_ensure, yields_set, decide_eq_true_eq,
    decide_eq_false_iff_not]
  refine ⟨fun _ => ⟨fun _ => .inr ?_, fun hlarge => hrefused fun ha => hlarge ha.2.2⟩,
    fun hzero => hrefused fun ha => hzero ⟨ha.1, ha.2.1⟩⟩
  split
  · exact ⟨⟨rfl, [], (List.append_nil _).symm, fun _ hnone => by cases hnone⟩, rfl, rfl, rfl,
      List.length_replicate⟩
  · rename_i hsame
    simp only [not_or, not_not] at hsame
    exact ⟨⟨rfl, [], (List.append_nil _).symm, fun _ hnone => by cases hnone⟩, rfl, hsame.1,
      hsame.2.1, hsame.2.2⟩

theorem rectFits_of_inside {rect : Rect} {width height : UInt32} (hwidth : rect.width ≠ 0)
    (hheight : rect.height ≠ 0) (hinside : rect.Inside width height) :
    rectFits rect width height = true := by
  have hright := hinside.right
  have hbottom := hinside.bottom
  have hw := width.toNat_lt
  have hh := height.toNat_lt
  simp only [rectFits, hwidth, hheight, decide_false, Bool.false_or, Bool.not_eq_true',
    Bool.or_eq_false_iff, decide_eq_false_iff_not, gt_iff_lt, UInt32.lt_iff_toNat_lt,
    UInt32.toNat_add, not_lt]
  rw [Nat.mod_eq_of_lt (by omega), Nat.mod_eq_of_lt (by omega)]
  exact ⟨hright, hbottom⟩

theorem begun_moveRect (h : Begun frame before s) (outside : Outside) (recordBytes : ℕ)
    {move : ExperimentalMoveRect} (hmove : move.Valid frame.width frame.height) :
    Yields (applyRecord outside recordBytes (move.record frame.frameId))
      (fun _ s' => Begun frame before s') s := by
  simp only [ExperimentalMoveRect.record, applyRecord, ensureFrame, yields_bind, yields_get,
    yields_ensure, yields_ite, decide_eq_true_eq]
  refine ⟨fun hcurrent => ?_, fun _ => h⟩
  obtain ⟨hbare, hplain, hsized⟩ := h.resolve_left fun hidle => hidle.1 hcurrent
  refine ⟨fun hexperimental => absurd (hplain.symm.trans hexperimental) (fun h => by cases h),
    fun _ => ?_⟩
  have hsource := rectFits_of_inside hmove.width_ne hmove.height_ne hmove.source
  have htarget := rectFits_of_inside hmove.width_ne hmove.height_ne hmove.target
  obtain ⟨rows, hread, hcount, hrows⟩ := readRows_some hmove.source hsized.sized
  obtain ⟨bgra, hwritten, hlength⟩ := writeRows_some hmove.target hsized.sized hrows
    (by rw [hcount, Nat.zero_add]; exact le_rfl)
  rw [← hsized.width_eq, ← hsized.height_eq] at hsource htarget
  rw [← hsized.width_eq] at hread hwritten
  unfold ExperimentalMoveRect.source at hsource hread
  unfold ExperimentalMoveRect.target at htarget hwritten
  simp only [applyMoveRect, validateRect, paint, yields_bind, yields_get, yields_ensure, yields_set,
    hsource, htarget, hread, hwritten, yields_lift_some, true_imp_iff]
  refine ⟨⟨.inr ⟨⟨hbare.waiting, hbare.queued⟩, hplain, ?_⟩, (fun h => by cases h)⟩,
    (fun h => by cases h)⟩
  exact ⟨hsized.width_eq, hsized.height_eq, hlength.trans hsized.sized⟩

theorem moveless_validateRect (rect : Rect) : Maintains (Moveless before) (validateRect rect) := by
  intro s h
  simp only [validateRect, yields_bind, yields_get, yields_ensure, yields_set]
  exact ⟨fun _ => ⟨h.waiting, h.queued⟩, fun _ => h⟩

variable {frameId : UInt64}

theorem received_applyRecord (h : Received frameId before s) {record : DisplayRecord}
    (hrecord : record.Queues frameId) (outside : Outside) (recordBytes : ℕ) :
    Yields (applyRecord outside recordBytes record) (fun _ s' => Received frameId before s') s :=
  stable_moveless.applyRecord frameId hrecord (fun rect _ => moveless_validateRect rect)
    (fun hcurrent => h.resolve_left fun hidle => hidle.1 hcurrent) h .inr

theorem FrameAtlas.queues {atlas : FrameAtlas} {record : DisplayRecord}
    (h : record ∈ atlas.records frameId ++ [.frameEnd frameId]) : record.Queues frameId := by
  rcases List.mem_append.mp h with hatlas | hend
  · cases atlas with
    | commands atlasWidth atlasHeight rects tileCommands =>
      rw [List.mem_singleton.mp hatlas]
      rfl
    | chunks first rest =>
      obtain ⟨chunk, -, rfl⟩ := List.mem_map.mp hatlas
      rfl
  · rw [List.mem_singleton.mp hend]
    rfl

end Handlers

/-! ## The records of a frame -/

variable {P : Compositor → Prop} {s : Compositor}

theorem step_of_record {input : Input} {record : DisplayRecord}
    (hrecord : input.record = some record)
    (h : Yields (applyRecord input.outside input.bytes.length record) (fun _ s' => P s') s) :
    ∃ s', step (some s) input = some s' ∧ P s' := by
  obtain ⟨result, s', hexec, h'⟩ := h.exists_exec
  refine ⟨s', ?_, h'⟩
  unfold Input.record at hrecord
  split at hrecord
  · rename_i decoded hdecode
    cases hrecord
    simp only [step, handleRecord, hdecode, hexec, Option.map_some]
  · cases hrecord

theorem run_of_records {records : List DisplayRecord} {inputs : List Input}
    (hsent : inputs.map Input.record = records.map some)
    (hstep : ∀ record ∈ records, ∀ outside recordBytes s, P s →
      Yields (applyRecord outside recordBytes record) (fun _ s' => P s') s) (h : P s) :
    ∃ s', run step (some s) inputs = some s' ∧ P s' := by
  induction inputs generalizing records s with
  | nil => exact ⟨s, rfl, h⟩
  | cons input inputs ih =>
    obtain ⟨record, rest, rfl, hrecord, hrest⟩ := List.map_eq_cons_iff.mp hsent.symm
    obtain ⟨hfirst, hlater⟩ := List.forall_mem_cons.mp hstep
    obtain ⟨s₁, hs₁, h₁⟩ := step_of_record hrecord.symm (hfirst _ _ s h)
    rw [run_cons, hs₁]
    exact ih hrest.symm hlater h₁

theorem run_frame {frame : SentFrame}
    (hvalid : ∀ move ∈ frame.moves, move.Valid frame.width frame.height) (hbegins : frame.Begins s)
    {inputs : List Input} (hsent : inputs.map Input.record = frame.records.map some) :
    ∃ s', run step (some s) inputs = some s' ∧ Received frame.frameId s.queued s' := by
  rw [SentFrame.records, List.cons_append, List.map_cons] at hsent
  obtain ⟨begin, inputs, rfl, hbegin, hsent⟩ := List.map_eq_cons_iff.mp hsent
  rw [List.map_append] at hsent
  obtain ⟨moves, inputs, rfl, hmoves, hsent⟩ := List.map_eq_append_iff.mp hsent
  obtain ⟨s₁, hs₁, h₁⟩ := step_of_record hbegin (begun_beginFrame hbegins)
  obtain ⟨s₂, hs₂, h₂⟩ := run_of_records (P := Begun frame s.queued) hmoves (by
    intro record hrecord outside recordBytes s h
    obtain ⟨move, hmove, rfl⟩ := List.mem_map.mp hrecord
    exact begun_moveRect h outside recordBytes (hvalid move hmove)) h₁
  obtain ⟨s₃, hs₃, h₃⟩ := run_of_records (P := Received frame.frameId s.queued) hsent
    (fun _ hrecord outside recordBytes _ h =>
      received_applyRecord h (FrameAtlas.queues hrecord) outside recordBytes) h₂.received
  refine ⟨s₃, ?_, h₃⟩
  rw [run_cons, hs₁, run_append, hs₂, hs₃]

theorem carry_of_moveless {moves : List ExperimentalMoveRect}
    {frames : List DeferredExperimentalFrame} (hnone : ∀ frame ∈ frames, frame.moves = []) :
    Carry moves frames ↔ moves = [] := by
  cases frames with
  | nil => exact Iff.rfl
  | cons first rest =>
    obtain ⟨hfirst, hrest⟩ := List.forall_mem_cons.mp hnone
    exact ⟨fun h => h.1.symm.trans hfirst, fun h => ⟨hfirst.trans h.symm, hrest⟩⟩

/-- The frames queued for the GPU desktop carry the moves of a frame exactly if it has none. -/
theorem moves_carried_iff (frame : SentFrame)
    (hvalid : ∀ move ∈ frame.moves, move.Valid frame.width frame.height) (s : Compositor)
    (hbegins : frame.Begins s) (inputs : List Input)
    (hsent : inputs.map Input.record = frame.records.map some) :
    MovesCarried frame s inputs ↔ frame.moves = [] := by
  obtain ⟨s', hrun, hreceived⟩ := run_frame hvalid hbegins hsent
  obtain ⟨frames, hqueued, hnone⟩ :
      ∃ frames, s'.queued = s.queued ++ frames ∧ ∀ frame ∈ frames, frame.moves = [] := by
    rcases hreceived with ⟨-, hqueued⟩ | hbare
    · exact ⟨[], by rw [hqueued, List.append_nil], fun _ hframe => nomatch hframe⟩
    · exact hbare.queued
  constructor
  · rintro ⟨s'', frames', hrun', hqueued', hcarry⟩
    cases hrun.symm.trans hrun'
    obtain rfl := List.append_cancel_left (hqueued.symm.trans hqueued')
    exact (carry_of_moveless hnone).mp hcarry
  · intro hmoves
    exact ⟨s', frames, hrun, hqueued, (carry_of_moveless hnone).mpr hmoves⟩

def smallSentFrame (moves : List ExperimentalMoveRect) : SentFrame where
  frameId := 7
  width := 4
  height := 4
  moves := moves
  atlas := .commands 1 1 [⟨2, 2, 1, 1, 0, 0⟩] []

def SentFrame.inputs : List Input :=
  frame.records.map fun record => ⟨record.build, .quiet⟩

theorem moves_carried_iff_without_moves :
    MovesCarried (smallSentFrame []) .new (smallSentFrame []).inputs :=
  (moves_carried_iff (smallSentFrame []) (fun _ hmove => nomatch hmove) .new
    (.inr (by decide)) (smallSentFrame []).inputs (by decide +kernel)).mpr rfl

/-- A frame is queued, and the move is not in it. -/
theorem move_not_carried :
    let frame := smallSentFrame [⟨0, 0, 3, 3, 1, 1⟩]
    (∀ move ∈ frame.moves, move.Valid frame.width frame.height) ∧ frame.Begins .new ∧
      frame.inputs.map Input.record = frame.records.map some ∧
      ¬MovesCarried frame .new frame.inputs := by
  have hvalid : (ExperimentalMoveRect.mk 0 0 3 3 1 1).Valid 4 4 :=
    ⟨by decide, by decide, ⟨by decide, by decide⟩, ⟨by decide, by decide⟩⟩
  refine ⟨List.forall_mem_singleton.mpr hvalid, .inr (by decide), by decide +kernel, ?_⟩
  rintro ⟨s', frames, hrun, hqueued, hcarry⟩
  have hmoves : (run step (some .new) (smallSentFrame [⟨0, 0, 3, 3, 1, 1⟩]).inputs).map
      (fun s => s.queued.map DeferredExperimentalFrame.moves) = some [[]] := by decide +kernel
  rw [hrun, Option.map_some, hqueued] at hmoves
  cases frames with
  | nil => exact nomatch hmoves
  | cons queued rest =>
    have hnone : queued.moves = [] := (List.cons.inj (Option.some.inj hmoves : _ :: _ = [[]])).1
    exact absurd (hnone.symm.trans hcarry.1) (by decide)

end Talos.Display
