import Mathlib.Algebra.Order.BigOperators.Group.List
import Mathlib.Data.List.TakeWhile
import Talos.Display.Compositor

/-!
# Frames deferred while the viewport is not ready

The queue between the compositor and the GPU desktop. Its byte count is the sum of its
frames after any calls. A frame of a megabyte or more drops the frames with smaller ids
that wait before it, although it is itself only a change of the desktop: the frames
presented are all that were queued only if no such frame follows an older one.
-/

namespace Talos.Display

open Rust Rust.Routine

abbrev Frames := List DeferredExperimentalFrame

/-- One call on the queue. -/
inductive QueueCall where
  | queue (frame : DeferredExperimentalFrame)
  | flush (outside : Outside)

def QueueCall.apply (s : Compositor) : QueueCall → Compositor
  | queue frame => s.queueDeferred frame
  | flush outside => (((flushDeferredExperimentalFrames outside).exec s).map Prod.snd).getD s

/-- The frames that a flush has presented when it ends. -/
def presentedFrom (outside : Outside) : ℕ → Frames → Frames
  | _, [] => []
  | n, frame :: rest =>
    match outside.presentExperimental n with
    | .ok none => frame :: presentedFrom outside (n + 1) rest
    | _ => []

/-- All frames that a run of calls presents. -/
def presentedBy : List QueueCall → Compositor → Frames
  | [], _ => []
  | .queue frame :: calls, s => presentedBy calls (QueueCall.apply s (.queue frame))
  | .flush outside :: calls, s =>
    presentedFrom outside 0 s.deferredExperimentalFrames
      ++ presentedBy calls (QueueCall.apply s (.flush outside))

/-- All frames that a run of calls queues. -/
def queuedBy : List QueueCall → Frames
  | [] => []
  | .queue frame :: calls => frame :: queuedBy calls
  | .flush _ :: calls => queuedBy calls

def totalBytes (frames : Frames) : ℕ := (frames.map (·.queuedBytes)).sum

variable {s : Compositor} {frame : DeferredExperimentalFrame} {frames : Frames}

@[simp] theorem totalBytes_cons : totalBytes (frame :: frames)
    = frame.queuedBytes + totalBytes frames := rfl

/-! ## The byte count -/

/-- A queue with its byte count, within the limit. -/
def Balanced (queue : Frames × ℕ) : Prop :=
  queue.2 = totalBytes queue.1 ∧ queue.2 ≤ maxDeferredExperimentalBytes

def Accounted (s : Compositor) : Prop :=
  Balanced (s.deferredExperimentalFrames, s.deferredExperimentalBytes)

/-- The frames that are left when a frame is about to be queued. -/
def coalesce (frames : Frames) (frame : DeferredExperimentalFrame) : Frames :=
  if largeExperimentalFrameBytes ≤ frame.queuedBytes then
    frames.dropWhile (·.frameId < frame.frameId)
  else frames

/-- The queue after it, within the limits. -/
def wait (frames : Frames) (frame : DeferredExperimentalFrame) : Frames :=
  coalesce frames frame ++ [frame]

theorem coalesce_sublist (frames : Frames) (frame : DeferredExperimentalFrame) :
    (coalesce frames frame).Sublist frames := by
  unfold coalesce
  split
  · exact List.dropWhile_sublist _
  · exact List.Sublist.refl _

theorem totalBytes_coalesce_le (frames : Frames) (frame : DeferredExperimentalFrame) :
    totalBytes (coalesce frames frame) ≤ totalBytes frames :=
  ((coalesce_sublist frames frame).map _).sum_le_sum fun _ _ => Nat.zero_le _

theorem dropOlder_eq (frame : DeferredExperimentalFrame) (frames : Frames) :
    dropOlder frame frames (totalBytes frames) = (frames.dropWhile (·.frameId < frame.frameId),
        totalBytes (frames.dropWhile (·.frameId < frame.frameId))) := by
  induction frames with
  | nil => rfl
  | cons first rest ih =>
    by_cases hold : first.frameId < frame.frameId
    · simp [dropOlder, hold, ih]
    · simp [dropOlder, hold]

theorem Accounted.queueDeferred_eq (h : Accounted s) (frame : DeferredExperimentalFrame) :
    s.queueDeferred frame =
      let left := coalesce s.deferredExperimentalFrames frame
      let queue := dropToLimit (left ++ [frame]) (saturatingAdd (totalBytes left) frame.queuedBytes)
      { s with
        deferredExperimentalFrames := queue.1
        deferredExperimentalBytes := queue.2
        queued := s.queued ++ [frame] } := by
  have hbytes : s.deferredExperimentalBytes = _ := h.1
  by_cases hlarge : largeExperimentalFrameBytes ≤ frame.queuedBytes
  · simp only [Compositor.queueDeferred, coalesce, if_pos hlarge, hbytes, dropOlder_eq]
  · simp only [Compositor.queueDeferred, coalesce, if_neg hlarge, hbytes]

/-- The second case is a sum that was cut at the largest number: every frame is dropped then. -/
theorem balanced_dropToLimit {bytes : ℕ} (h : bytes = totalBytes frames + frame.queuedBytes ∨
      (totalBytes frames + maxDeferredExperimentalBytes < bytes ∧
        bytes ≤ totalBytes frames + frame.queuedBytes)) :
    Balanced (dropToLimit (frames ++ [frame]) bytes) := by
  have hnil : totalBytes [] = 0 := rfl
  induction frames generalizing bytes with
  | nil =>
    rw [List.nil_append, dropToLimit]
    split
    · have hzero : bytes - frame.queuedBytes = 0 := by omega
      rw [hzero]
      exact ⟨rfl, by decide⟩
    · simp only [Balanced, totalBytes_cons]
      omega
  | cons first rest ih =>
    rw [totalBytes_cons] at h
    rw [List.cons_append, dropToLimit]
    split
    · exact ih (by omega)
    · have hsum : totalBytes (rest ++ [frame]) = totalBytes rest + frame.queuedBytes := by
        simp [totalBytes]
      simp only [Balanced, totalBytes_cons, hsum]
      omega

theorem balanced_flushFrom (outside : Outside) (n : ℕ) {bytes : ℕ} (h : Balanced (frames, bytes)) :
    Balanced (flushFrom outside n frames bytes).2 := by
  induction frames generalizing n bytes with
  | nil => exact h
  | cons first rest ih =>
    simp only [Balanced, totalBytes_cons] at h ih
    rw [flushFrom]
    split
    · simp only [Balanced]
      omega
    · simp only [Balanced, saturatingAdd, u64Max, totalBytes_cons,
        maxDeferredExperimentalBytes] at h ⊢
      omega
    · exact ih (n + 1) (by omega)

/-- The queue that a flush leaves, also when it ends with an error. -/
theorem QueueCall.apply_flush (s : Compositor) (outside : Outside) :
    let s' := (flush outside).apply s
    (s'.deferredExperimentalFrames, s'.deferredExperimentalBytes)
      = (flushFrom outside 0 s.deferredExperimentalFrames s.deferredExperimentalBytes).2 := by
  have hyields : Yields (flushDeferredExperimentalFrames outside) (fun _ s' =>
      (s'.deferredExperimentalFrames, s'.deferredExperimentalBytes)
        = (flushFrom outside 0 s.deferredExperimentalFrames s.deferredExperimentalBytes).2) s := by
    simp only [flushDeferredExperimentalFrames, yields_bind, yields_get, yields_set]
    split <;> exact rfl
  unfold Yields at hyields
  split at hyields
  · cases hyields
  next hexec =>
    simp only [apply, hexec]
    exact hyields

theorem Accounted.apply (h : Accounted s) (call : QueueCall) : Accounted (call.apply s) := by
  cases call with
  | queue frame =>
    have hle := totalBytes_coalesce_le s.deferredExperimentalFrames frame
    simp only [Accounted, QueueCall.apply, h.queueDeferred_eq frame]
    refine balanced_dropToLimit ?_
    simp only [Accounted, Balanced, saturatingAdd, u64Max, maxDeferredExperimentalBytes] at h ⊢
    omega
  | flush outside =>
    rw [Accounted, QueueCall.apply_flush]
    exact balanced_flushFrom outside 0 h

variable {calls : List QueueCall}

theorem Accounted.run (h : Accounted s) (calls : List QueueCall) :
    Accounted (calls.foldl QueueCall.apply s) := by
  induction calls generalizing s with
  | nil => exact h
  | cons call calls ih => exact ih (h.apply call)

/-! ## The frames presented -/

/-- The viewport is not ready at any flush, and no queued frame brings the queue over its
limits. -/
def Waits : List QueueCall → Compositor → Prop
  | [], _ => True
  | .queue frame :: calls, s =>
    let left := coalesce s.deferredExperimentalFrames frame
    left.length + 1 ≤ maxDeferredExperimentalFrames ∧
      totalBytes left + frame.queuedBytes ≤ maxDeferredExperimentalBytes ∧
      Waits calls (QueueCall.apply s (.queue frame))
  | .flush outside :: calls, s =>
    (∃ reason, outside.presentExperimental 0 = .ok (some reason)) ∧
      Waits calls (QueueCall.apply s (.flush outside))

theorem dropToLimit_of_le {bytes : ℕ} (hlength : frames.length ≤ maxDeferredExperimentalFrames)
    (hbytes : bytes ≤ maxDeferredExperimentalBytes) :
    dropToLimit frames bytes = (frames, bytes) := by
  cases frames <;> rw [dropToLimit, if_neg (by omega)]

/-- What waits after the calls, and that nothing has been presented. -/
theorem Waits.left (h : Waits calls s) (hs : Accounted s) :
    (calls.foldl QueueCall.apply s).deferredExperimentalFrames
        = (queuedBy calls).foldl wait s.deferredExperimentalFrames ∧
      presentedBy calls s = [] := by
  induction calls generalizing s with
  | nil => exact ⟨rfl, rfl⟩
  | cons call calls ih =>
    cases call with
    | queue frame =>
      obtain ⟨hlength, hbytes, h⟩ := h
      have hqueue : (s.queueDeferred frame).deferredExperimentalFrames
          = wait s.deferredExperimentalFrames frame := by
        rw [hs.queueDeferred_eq frame]
        exact congrArg Prod.fst
          (dropToLimit_of_le (by simpa using hlength) ((Nat.min_le_left _ _).trans hbytes))
      have hrest := ih h (hs.apply (.queue frame))
      rwa [QueueCall.apply, hqueue] at hrest
    | flush outside =>
      obtain ⟨⟨reason, hreason⟩, h⟩ := h
      have hqueue := congrArg Prod.fst (QueueCall.apply_flush s outside)
      have hrest := ih h (hs.apply (.flush outside))
      rw [presentedBy, hrest.2, List.append_nil]
      cases hframes : s.deferredExperimentalFrames <;>
        simp only [hframes, flushFrom, hreason] at hqueue <;> rw [hqueue] at hrest
      · exact ⟨hrest.1, rfl⟩
      · exact ⟨hrest.1, by rw [presentedFrom, hreason]⟩

theorem presentedFrom_ready {ready : Outside} (h : ∀ n, ready.presentExperimental n = .ok none)
    (n : ℕ) (frames : Frames) : presentedFrom ready n frames = frames := by
  induction frames generalizing n with
  | nil => rfl
  | cons first rest ih => rw [presentedFrom, h n, ih]

theorem presentedBy_append (calls calls' : List QueueCall) (s : Compositor) :
    presentedBy (calls ++ calls') s
      = presentedBy calls s ++ presentedBy calls' (calls.foldl QueueCall.apply s) := by
  induction calls generalizing s with
  | nil => rfl
  | cons call calls ih => cases call <;> simp [presentedBy, ih]

/-- The second frame does not drop the first. -/
def Spares (older newer : DeferredExperimentalFrame) : Prop :=
  older.frameId < newer.frameId → newer.queuedBytes < largeExperimentalFrameBytes

theorem coalesce_eq_iff (hids : (frames ++ [frame]).Pairwise (·.frameId ≤ ·.frameId)) :
    coalesce frames frame = frames ↔ ∀ older ∈ frames, Spares older frame := by
  unfold coalesce Spares
  split
  next hlarge =>
    simp only [Nat.not_lt.mpr hlarge, imp_false]
    cases frames with
    | nil => simp
    | cons first rest =>
      -- the ids do not decrease, so the first frame is the oldest
      rw [List.cons_append, List.pairwise_cons] at hids
      rw [List.dropWhile_eq_self_iff]
      refine ⟨fun h => List.forall_mem_cons.mpr ?_, fun h _ hlt => ?_⟩
      · have hfirst : ¬ first.frameId < frame.frameId := by simpa using h
        exact ⟨hfirst, fun older holder hlt => hfirst (UInt64.lt_of_le_of_lt
          (hids.1 older (List.mem_append_left _ holder)) hlt)⟩
      · exact h first List.mem_cons_self (by simpa using hlt)
  next hsmall => simp [Nat.not_le.mp hsmall]

theorem length_foldl_wait_le (frames queued : Frames) :
    (queued.foldl wait frames).length ≤ frames.length + queued.length := by
  induction queued generalizing frames with
  | nil => exact le_rfl
  | cons frame queued ih =>
    have hrest := ih (wait frames frame)
    have hle := (coalesce_sublist frames frame).length_le
    simp only [wait, List.foldl_cons, List.length_append, List.length_cons,
      List.length_nil] at hrest ⊢
    omega

theorem foldl_wait_eq_iff {queued : Frames}
    (hids : (frames ++ queued).Pairwise (·.frameId ≤ ·.frameId)) :
    queued.foldl wait frames = frames ++ queued ↔
      queued.Pairwise Spares ∧ ∀ older ∈ frames, ∀ newer ∈ queued, Spares older newer := by
  induction queued generalizing frames with
  | nil => simp
  | cons frame queued ih =>
    have hsplit : frames ++ frame :: queued = frames ++ [frame] ++ queued := by simp
    rw [hsplit] at hids ⊢
    have hcoalesce := coalesce_eq_iff (List.pairwise_append.mp hids).1
    rw [List.foldl_cons, wait]
    by_cases hkept : coalesce frames frame = frames
    · rw [hkept, ih hids]
      have hspares := hcoalesce.mp hkept
      simp only [List.pairwise_cons, List.forall_mem_append, List.forall_mem_singleton,
        List.forall_mem_cons]
      constructor
      · rintro ⟨hlater, hall, hframe⟩
        exact ⟨⟨hframe, hlater⟩, fun older holder => ⟨hspares older holder, hall older holder⟩⟩
      · rintro ⟨⟨hframe, hlater⟩, hall⟩
        exact ⟨hlater, fun older holder => (hall older holder).2, hframe⟩
    · refine iff_of_false (fun hall => ?_) fun hspares => hkept (hcoalesce.mpr
        fun older holder => hspares.2 older holder frame List.mem_cons_self)
      have hlt := lt_of_le_of_ne (coalesce_sublist frames frame).length_le fun heq =>
        hkept ((coalesce_sublist frames frame).eq_of_length heq)
      have hle := length_foldl_wait_le (coalesce frames frame ++ [frame]) queued
      rw [hall] at hle
      simp only [List.length_append, List.length_cons, List.length_nil] at hle
      omega

theorem Waits.presentedBy_flush (h : Waits calls s) (hs : Accounted s) {ready : Outside}
    (hready : ∀ n, ready.presentExperimental n = .ok none) :
    presentedBy (calls ++ [.flush ready]) s
      = (queuedBy calls).foldl wait s.deferredExperimentalFrames := by
  obtain ⟨hframes, hnone⟩ := h.left hs
  rw [presentedBy_append, hnone, List.nil_append, presentedBy, presentedBy, List.append_nil,
    presentedFrom_ready hready, hframes]

/-- The frames presented when the viewport becomes ready are all that were queued, and the
byte count is right after every call. -/
def KeepsFrames (calls : List QueueCall) (ready : Outside) (s : Compositor) : Prop :=
  presentedBy (calls ++ [.flush ready]) s = queuedBy calls ∧
    ∀ n, let s' := ((calls ++ [QueueCall.flush ready]).take n).foldl QueueCall.apply s
      s'.deferredExperimentalBytes = totalBytes s'.deferredExperimentalFrames

theorem keepsFrames_iff (s : Compositor) (hempty : s.deferredExperimentalFrames = [])
    (hbytes : s.deferredExperimentalBytes = 0) (calls : List QueueCall)
    (hids : (queuedBy calls).Pairwise (·.frameId ≤ ·.frameId)) (hwaits : Waits calls s)
    (ready : Outside) (hready : ∀ n, ready.presentExperimental n = .ok none) :
    KeepsFrames calls ready s ↔ (queuedBy calls).Pairwise fun older newer =>
      older.frameId < newer.frameId → newer.queuedBytes < largeExperimentalFrameBytes := by
  have hstart : Accounted s := by
    rw [Accounted, hempty, hbytes]
    exact ⟨rfl, Nat.zero_le _⟩
  have hiff : (queuedBy calls).foldl wait [] = [] ++ queuedBy calls ↔ _ := foldl_wait_eq_iff hids
  rw [KeepsFrames, hwaits.presentedBy_flush hstart hready, hempty]
  constructor
  · exact fun h => (hiff.mp h.1).1
  · exact fun h => ⟨hiff.mpr ⟨h, fun _ holder => nomatch holder⟩, fun n => (hstart.run _).1⟩

/-- A frame with a stream of the given size and one rectangle. -/
def frameOfSize (frameId : UInt64) (size : ℕ) : DeferredExperimentalFrame where
  frameId := frameId
  desktopWidth := 4
  desktopHeight := 4
  atlas := ⟨1, 1, [⟨2, 2, 1, 1, 0, 0⟩], List.replicate size 0, size + 64⟩
  moves := []
  presentAfterComposite := true

theorem queuedBytes_frameOfSize {frameId : UInt64} {size : ℕ} (h : size ≤ 1024 * 1024) :
    (frameOfSize frameId size).queuedBytes = 2 * size + 88 := by
  simp [DeferredExperimentalFrame.queuedBytes, frameOfSize, saturatingAdd, saturatingMul, u64Max]
  omega

def Outside.answering (answer : Option String) : Outside where
  newDecoder := .ok ()
  decode := .ok none
  presentCached := .ok ()
  presentExperimental _ := .ok answer

theorem wait_nil (frame : DeferredExperimentalFrame) : wait [] frame = [frame] := by
  unfold wait coalesce
  split <;> rfl

/-- Two frames that wait for the viewport. -/
def twoFrames (size : ℕ) : List QueueCall :=
  [.queue (frameOfSize 1 100), .flush (.answering (some "no viewport")),
    .queue (frameOfSize 2 size)]

theorem waits_twoFrames {size : ℕ} (h : size ≤ 1024 * 1024) : Waits (twoFrames size) .new := by
  have hfirst : Waits [.queue (frameOfSize 1 100), .flush (.answering (some "no viewport"))] .new :=
    ⟨by decide +kernel, by decide +kernel, ⟨_, rfl⟩, trivial⟩
  have hleft : _ = [frameOfSize 1 100] := (hfirst.left ⟨rfl, by decide⟩).1.trans (wait_nil _)
  rw [List.foldl_cons, List.foldl_cons, List.foldl_nil] at hleft
  have hlength := (coalesce_sublist [frameOfSize 1 100] (frameOfSize 2 size)).length_le
  have hbytes := totalBytes_coalesce_le [frameOfSize 1 100] (frameOfSize 2 size)
  rw [← hleft] at hlength hbytes
  refine ⟨hfirst.1, hfirst.2.1, ⟨_, rfl⟩, Nat.succ_le_succ (hlength.trans ?_),
    (Nat.add_le_add hbytes (queuedBytes_frameOfSize h).le).trans ?_, trivial⟩ <;> rw [hleft]
  · decide
  · rw [show totalBytes [frameOfSize 1 100] = 288 by decide +kernel, maxDeferredExperimentalBytes]
    omega

theorem keepsFrames_iff_small : KeepsFrames (twoFrames 100) (.answering none) .new :=
  (keepsFrames_iff .new rfl rfl (twoFrames 100) (by decide) (waits_twoFrames (by decide))
    (.answering none) fun _ => rfl).mpr (by decide +kernel)

theorem presentedBy_twoFrames {size : ℕ} (h : size ≤ 1024 * 1024)
    (hlarge : largeExperimentalFrameBytes ≤ 2 * size + 88) :
    presentedBy (twoFrames size ++ [.flush (.answering none)]) .new = [frameOfSize 2 size] := by
  have hwait : wait [frameOfSize 1 100] (frameOfSize 2 size) = [frameOfSize 2 size] := by
    rw [wait, coalesce, if_pos (by rwa [queuedBytes_frameOfSize h])]
    rfl
  rw [(waits_twoFrames h).presentedBy_flush ⟨rfl, by decide⟩ fun _ => rfl]
  exact (congrArg (wait · _) (wait_nil _)).trans hwait

/-- The second frame has a stream of a megabyte, and only it is presented. -/
theorem large_frame_drops_older :
    (queuedBy (twoFrames (1024 * 1024))).Pairwise (·.frameId ≤ ·.frameId) ∧
      Waits (twoFrames (1024 * 1024)) .new ∧
      presentedBy (twoFrames (1024 * 1024) ++ [.flush (.answering none)]) .new
        = [frameOfSize 2 (1024 * 1024)] :=
  ⟨by decide, waits_twoFrames le_rfl, presentedBy_twoFrames le_rfl (by decide)⟩

end Talos.Display
