import Mathlib.Data.List.Infix
import Talos.Relay.Transport
import Talos.Transition.Run

/-!
# Delivery over an untrusted relay

The relay hands any bytes to an endpoint. A frame that decrypts is one that some endpoint has
written, but the reader neither checks the number in the nonce nor tells the two directions
apart: a frame that comes twice, too early or back to its sender is taken as well. What an
endpoint returns is in order exactly when the bytes in front of a reader never begin with such a
frame; a relay that forwards the bytes as they were written sees to that.
-/

namespace Talos.Relay

open Transition

/-! ## The channel -/

inductive Side where
  | viewer
  | worker
deriving DecidableEq

def Side.other : Side → Side
  | .viewer => .worker
  | .worker => .viewer

/-- An endpoint: the frames that it has written, the bytes that the relay has handed to it and
those of them that it has not read, and the plaintexts that its reader has returned. -/
structure Party where
  counter : ℕ
  frames : List Frame
  received : Bytes
  stream : Bytes
  returned : List Bytes
  stopped : Bool

def Party.sent (party : Party) : List Bytes := party.frames.map Frame.plaintext

abbrev Channel := Side → Party

/-- Everything that was encrypted under the key. -/
def Channel.log (c : Channel) : List Frame := (c .viewer).frames ++ (c .worker).frames

def Channel.start : Channel := fun _ => ⟨0, [], [], [], [], false⟩

inductive ChannelAction where
  | send (side : Side) (plaintext : Bytes)
  | deliver (side : Side) (bytes : Bytes)
  | read (side : Side)

variable (aead : Aead)

/-- The party after a call of `read_e2e_frame_from`; its loop ends with the first error. -/
def Party.read (log : List Frame) (party : Party) : Party :=
  if party.stopped then party
  else
    match readE2eFrameFrom aead log party.stream with
    | .incomplete => party
    | .failed => { party with stopped := true }
    | .frame plaintext rest =>
      { party with stream := rest, returned := party.returned ++ [plaintext] }

def Party.send (party : Party) (plaintext : Bytes) : Party :=
  let (frame, counter) := writeE2eFrame party.counter plaintext
  { party with counter, frames := party.frames ++ [frame] }

def Party.deliver (party : Party) (bytes : Bytes) : Party :=
  { party with received := party.received ++ bytes, stream := party.stream ++ bytes }

def Channel.step (c : Channel) : ChannelAction → Channel
  | .send side plaintext => Function.update c side ((c side).send plaintext)
  | .deliver side bytes => Function.update c side ((c side).deliver bytes)
  | .read side => Function.update c side ((c side).read aead c.log)

/-- What an endpoint has returned is the beginning of what the other one has sent. -/
def InOrder (c : Channel) : Prop := ∀ side, (c side).returned <+: (c side.other).sent

/-- Where a reader goes on, the bytes that the relay has handed over begin with no frame, of
either endpoint, but the next one of the other endpoint or one with the same plaintext. -/
def HandsOverNext (c : Channel) : ChannelAction → Prop
  | .read side =>
    (c side).stopped = false → ∀ frame ∈ c.log, frame.Readable aead →
      frame.bytes aead <+: (c side).stream →
      (c side.other).sent[(c side).returned.length]? = some frame.plaintext
  | _ => True

/-! ## One step -/

section Step

variable {aead : Aead} {c : Channel}

/-- A step changes one party; what it and the parties before have, the parties after have. -/
theorem forall_update {P : Side → Party → Prop} {target : Side} {party : Party}
    (hown : P target party) (hc : ∀ side, P side (c side)) (side : Side) :
    P side (Function.update c target party side) :=
  (Function.forall_update_iff c P).mpr ⟨hown, fun side _ => hc side⟩ side

theorem Party.sent_send (party : Party) (plaintext : Bytes) :
    (party.send plaintext).sent = party.sent ++ [plaintext] := by
  simp [send, sent, writeE2eFrame]

theorem Party.sent_read (log : List Frame) (party : Party) :
    (party.read aead log).sent = party.sent := by
  unfold Party.read
  split
  · rfl
  · split <;> rfl

theorem sent_step_prefix_of (a : ChannelAction) (side : Side) :
    (c side).sent <+: (c.step aead a side).sent := by
  have hsame (side : Side) : (c side).sent <+: (c side).sent := List.prefix_refl _
  cases a with
  | send target plaintext =>
    refine forall_update (P := fun side party => (c side).sent <+: party.sent) ?_ hsame side
    rw [Party.sent_send]
    exact List.prefix_append _ _
  | deliver target bytes =>
    refine forall_update (P := fun side party => (c side).sent <+: party.sent) ?_ hsame side
    exact hsame target
  | read target =>
    refine forall_update (P := fun side party => (c side).sent <+: party.sent) ?_ hsame side
    rw [Party.sent_read]

theorem prefix_concat_iff_getElem? {α : Type*} {returned sent : List α} {x : α}
    (h : returned <+: sent) : returned ++ [x] <+: sent ↔ sent[returned.length]? = some x := by
  obtain ⟨rest, rfl⟩ := h
  rw [List.prefix_append_right_inj, List.getElem?_append_right le_rfl, Nat.sub_self]
  cases rest with
  | nil => simp
  | cons y rest => simp [eq_comm]

theorem inOrder_step_iff (aead : Aead) (c : Channel) (a : ChannelAction) (hc : InOrder c) :
    InOrder (c.step aead a) ↔ HandsOverNext aead c a := by
  have hgrows : ∀ side, (c side).returned <+: (c.step aead a side.other).sent :=
    fun side => (hc side).trans (sent_step_prefix_of a side.other)
  cases a with
  | send target plaintext =>
    refine iff_of_true
      (forall_update (P := fun side party => party.returned <+: _) ?_ hgrows) trivial
    exact hgrows target
  | deliver target bytes =>
    refine iff_of_true
      (forall_update (P := fun side party => party.returned <+: _) ?_ hgrows) trivial
    exact hgrows target
  | read target =>
    have hsent : ∀ side, (c.step aead (.read target) side).sent = (c side).sent :=
      forall_update (P := fun side party => party.sent = (c side).sent) (Party.sent_read ..)
        fun _ => rfl
    have hown : InOrder (c.step aead (.read target)) ↔
        ((c target).read aead c.log).returned <+: (c target.other).sent := by
      simp only [InOrder, hsent]
      refine ⟨fun horder => ?_, fun hread =>
        forall_update (P := fun side party => party.returned <+: (c side.other).sent) hread hc⟩
      have hread := horder target
      rwa [Channel.step, Function.update_self] at hread
    rw [hown]
    cases hstopped : (c target).stopped with
    | true =>
      rw [Party.read, if_pos hstopped]
      exact iff_of_true (hc target) fun h => nomatch hstopped.symm.trans h
    | false =>
      rw [Party.read, if_neg (by simp [hstopped])]
      cases hread : readE2eFrameFrom aead c.log (c target).stream with
      | incomplete =>
        refine iff_of_true (hc target) fun _ frame hmem hreadable hfront => ?_
        obtain ⟨rest, hrest⟩ := hfront
        rw [← hrest, readE2eFrameFrom_bytes rest hmem hreadable] at hread
        cases hread
      | failed =>
        refine iff_of_true (hc target) fun _ frame hmem hreadable hfront => ?_
        obtain ⟨rest, hrest⟩ := hfront
        rw [← hrest, readE2eFrameFrom_bytes rest hmem hreadable] at hread
        cases hread
      | frame plaintext rest =>
        obtain ⟨frame, hmem, hreadable, hplaintext, hstream⟩ := exists_frame_of_read hread
        refine (prefix_concat_iff_getElem? (hc target)).trans
          ⟨fun h _ other hother hreadable' hfront => ?_, fun h => ?_⟩
        · obtain ⟨rest', hrest⟩ := hfront
          rw [← hrest, readE2eFrameFrom_bytes rest' hother hreadable'] at hread
          cases hread
          exact h
        · rw [← hplaintext]
          exact h hstopped frame hmem hreadable (hstream ▸ List.prefix_append _ _)

end Step

/-- What the endpoints return is in order throughout a run exactly when no reader ever has a
frame in front of it but the next one. -/
theorem delivery_in_order_iff (aead : Aead) (as : List ChannelAction) :
    (∀ earlier rest, as = earlier ++ rest →
        InOrder (run (Channel.step aead) Channel.start earlier)) ↔
      along (Channel.step aead) (HandsOverNext aead) Channel.start as :=
  always_iff_along (inOrder_step_iff aead) (fun _ => List.prefix_refl _) as

/-- The relay hands the greeting of the worker to the viewer twice. -/
def replayed : List ChannelAction :=
  let frame : Frame := (writeE2eFrame 0 [104, 105]).1
  [.send .worker frame.plaintext, .deliver .viewer (frame.bytes aead), .read .viewer,
    .deliver .viewer (frame.bytes aead), .read .viewer]

def plainAead : Aead := ⟨fun _ plaintext => plaintext, fun _ _ _ h => h⟩

theorem not_inOrder_replayed :
    ¬ InOrder (run (Channel.step plainAead) Channel.start (replayed plainAead)) := by
  intro horder
  have hreturned : (run (Channel.step plainAead) Channel.start (replayed plainAead)
      .viewer).returned = [[104, 105], [104, 105]] := by decide +kernel
  have hsent : (run (Channel.step plainAead) Channel.start (replayed plainAead)
      .worker).sent = [[104, 105]] := by decide +kernel
  have hviewer : _ <+: (run (Channel.step plainAead) Channel.start (replayed plainAead)
      .worker).sent := horder .viewer
  rw [hreturned, hsent] at hviewer
  exact absurd hviewer (by decide)

/-! ## A relay that forwards -/

def Party.wire (party : Party) : Bytes := party.frames.flatMap (Frame.bytes aead)

/-- What the relay hands over is what the other endpoint has written, and no frame is larger
than a reader accepts. -/
def Forwards (c : Channel) : ChannelAction → Prop
  | .send side plaintext =>
    12 + (aead.encrypt (nonceFromCounter (c side).counter) plaintext).length ≤ maxFrameBytes
  | .deliver side bytes => (c side).received ++ bytes <+: (c side.other).wire aead
  | .read _ => True

/-- A part of a frame is not read. -/
theorem readE2eFrameFrom_part {aead : Aead} {log : List Frame} {frame : Frame} {stream : Bytes}
    (hreadable : frame.Readable aead) (hpart : stream <+: frame.bytes aead)
    (hlt : stream.length < (frame.bytes aead).length) :
    readE2eFrameFrom aead log stream = .incomplete := by
  obtain ⟨hnonce, hsize⟩ := hreadable
  have hmax : maxFrameBytes < 2 ^ 32 := by decide
  have hmod : (frame.nonce.length + (frame.ciphertext aead).length) % 2 ^ 32 =
      12 + (frame.ciphertext aead).length := by
    rw [hnonce, Nat.mod_eq_of_lt (hsize.trans_lt hmax)]
  have hlength : (frame.bytes aead).length = 4 + (12 + (frame.ciphertext aead).length) := by
    simp [Frame.bytes, hnonce]
  rcases Nat.lt_or_ge stream.length 4 with hshort | hlong
  · rw [readE2eFrameFrom, if_pos hshort]
  · have htake : stream.take 4 = Rust.toBeBytes 4 (12 + (frame.ciphertext aead).length) := by
      have hsame : stream.take 4 = (frame.bytes aead).take 4 := by
        rw [List.prefix_iff_eq_take.mp hpart, List.take_take, Nat.min_eq_left hlong]
      rw [hsame, Frame.bytes, hmod, List.append_assoc]
      exact List.take_left' (Rust.length_toBeBytes 4 _)
    have hlen : Rust.ofBeBytes (Rust.toBeBytes 4 (12 + (frame.ciphertext aead).length)) =
        12 + (frame.ciphertext aead).length :=
      Rust.ofBeBytes_toBeBytes (by
        calc 12 + (frame.ciphertext aead).length ≤ maxFrameBytes := hsize
          _ < 256 ^ 4 := by decide)
    unfold readE2eFrameFrom
    rw [if_neg (by omega)]
    simp only [htake, hlen]
    rw [if_neg (by omega), if_neg (by omega), if_pos (by rw [List.length_drop]; omega)]

/-- The reader has read whole frames of the other endpoint, and the bytes that it has not read
follow them. -/
structure Reads (aead : Aead) (frames : List Frame) (party : Party) : Prop where
  received : party.received <+: frames.flatMap (Frame.bytes aead)
  unread : party.received =
    (frames.take party.returned.length).flatMap (Frame.bytes aead) ++ party.stream
  running : party.stopped = false

/-- What holds where the relay forwards. -/
structure Forwarded (aead : Aead) (c : Channel) : Prop where
  order : InOrder c
  readable : ∀ side, ∀ frame ∈ (c side).frames, frame.Readable aead
  reads : ∀ side, Reads aead (c side.other).frames (c side)

section Forwarding

variable {aead : Aead} {c : Channel}

theorem Party.wire_eq (aead : Aead) (party : Party) (n : ℕ) : party.wire aead =
    (party.frames.take n).flatMap (Frame.bytes aead) ++
      (party.frames.drop n).flatMap (Frame.bytes aead) := by
  rw [Party.wire, ← List.flatMap_append, List.take_append_drop]

variable (h : Forwarded aead c)
include h

theorem Forwarded.update {target : Side} {party : Party}
    (horder : InOrder (Function.update c target party)) (hframes : party.frames = (c target).frames)
    (hreads : Reads aead (c target.other).frames party) :
    Forwarded aead (Function.update c target party) := by
  have hsame : ∀ side, (Function.update c target party side).frames = (c side).frames :=
    forall_update (P := fun side party => party.frames = (c side).frames) hframes fun _ => rfl
  have hall : ∀ side, Reads aead (c side.other).frames (Function.update c target party side) :=
    forall_update (P := fun side party => Reads aead (c side.other).frames party) hreads h.reads
  simp only [← hsame] at hall
  exact ⟨horder, fun side frame hmem => h.readable side frame (hsame side ▸ hmem), hall⟩

theorem Forwarded.stream (side : Side) : (c side).stream <+:
      ((c side.other).frames.drop (c side).returned.length).flatMap (Frame.bytes aead) := by
  have hreceived : (c side).received <+: (c side.other).wire aead := (h.reads side).received
  rw [(h.reads side).unread, Party.wire_eq aead _ (c side).returned.length] at hreceived
  exact (List.prefix_append_right_inj _).mp hreceived

theorem Forwarded.read_whole {side : Side} {frame : Frame} {rest : Bytes}
    (hget : (c side.other).frames[(c side).returned.length]? = some frame)
    (hstream : (c side).stream = frame.bytes aead ++ rest) :
    readE2eFrameFrom aead c.log (c side).stream = .frame frame.plaintext rest := by
  have hmem := List.mem_of_getElem? hget
  have hlog : frame ∈ c.log := by
    cases side
    · exact List.mem_append_right _ hmem
    · exact List.mem_append_left _ hmem
  rw [hstream]
  exact readE2eFrameFrom_bytes rest hlog (h.readable side.other frame hmem)

/-- A reader waits, or reads the next frame of the other endpoint. -/
theorem Forwarded.read (side : Side) :
    readE2eFrameFrom aead c.log (c side).stream = .incomplete ∨
      ∃ frame rest, (c side.other).frames[(c side).returned.length]? = some frame ∧
        (c side).stream = frame.bytes aead ++ rest ∧
        readE2eFrameFrom aead c.log (c side).stream = .frame frame.plaintext rest := by
  have hstream := h.stream side
  cases hdrop : (c side.other).frames.drop (c side).returned.length with
  | nil =>
    rw [hdrop] at hstream
    have hempty : (c side).stream = [] := List.prefix_nil.mp hstream
    rw [hempty]
    exact .inl rfl
  | cons frame frames =>
    have hget : (c side.other).frames[(c side).returned.length]? = some frame := by
      rw [← List.head?_drop, hdrop, List.head?_cons]
    rw [hdrop, List.flatMap_cons] at hstream
    rcases List.prefix_or_prefix_of_prefix (List.prefix_append (frame.bytes aead) _) hstream with
      ⟨rest, hwhole⟩ | hpart
    · exact .inr ⟨frame, rest, hget, hwhole.symm, h.read_whole hget hwhole.symm⟩
    · rcases hpart.length_le.lt_or_eq with hlt | heq
      · have hreadable := h.readable side.other frame (List.mem_of_getElem? hget)
        exact .inl (readE2eFrameFrom_part hreadable hpart hlt)
      · have hwhole : (c side).stream = frame.bytes aead ++ [] := by
          rw [hpart.eq_of_length heq, List.append_nil]
        exact .inr ⟨frame, [], hget, hwhole, h.read_whole hget hwhole⟩

/-- A reader that waits although everything was handed to it has returned everything. -/
theorem Forwarded.returned_eq {side : Side}
    (hreceived : (c side).received = (c side.other).wire aead)
    (hwaits : readE2eFrameFrom aead c.log (c side).stream = .incomplete) :
    (c side).returned = (c side.other).sent := by
  rw [(h.reads side).unread, Party.wire_eq aead _ (c side).returned.length] at hreceived
  have hstream := List.append_cancel_left hreceived
  cases hdrop : (c side.other).frames.drop (c side).returned.length with
  | nil =>
    refine (h.order side).eq_of_length_le ?_
    rw [Party.sent, List.length_map]
    exact List.drop_eq_nil_iff.mp hdrop
  | cons frame frames =>
    have hget : (c side.other).frames[(c side).returned.length]? = some frame := by
      rw [← List.head?_drop, hdrop, List.head?_cons]
    rw [hdrop, List.flatMap_cons] at hstream
    have hread := h.read_whole hget hstream
    rw [hwaits] at hread
    cases hread

theorem Forwarded.handsOverNext (a : ChannelAction) : HandsOverNext aead c a := by
  cases a with
  | send side plaintext => trivial
  | deliver side bytes => trivial
  | read side =>
    rintro _ frame hmem hreadable ⟨rest, hrest⟩
    have hread := readE2eFrameFrom_bytes rest hmem hreadable
    rw [hrest] at hread
    rcases h.read side with hwait | ⟨next, rest', hget, _, hread'⟩
    · exact nomatch hwait.symm.trans hread
    · rw [hread', Read.frame.injEq] at hread
      rw [Party.sent, List.getElem?_map, hget, Option.map_some, hread.1]

theorem Forwarded.returned_le (side : Side) :
    (c side).returned.length ≤ (c side.other).frames.length := by
  have hle := (h.order side).length_le
  rwa [Party.sent, List.length_map] at hle

theorem Forwarded.step_send {target : Side} {plaintext : Bytes}
    (hsize : Forwards aead c (.send target plaintext)) :
    Forwarded aead (c.step aead (.send target plaintext)) := by
  have horder := (inOrder_step_iff aead c (.send target plaintext) h.order).mpr trivial
  have hframes : ∀ side, ∃ more, (c.step aead (.send target plaintext) side).frames =
      (c side).frames ++ more :=
    forall_update (P := fun side party => ∃ more, party.frames = (c side).frames ++ more) ⟨_, rfl⟩
      fun _ => ⟨[], (List.append_nil _).symm⟩
  have hreads (side : Side) :
      Reads aead (c.step aead (.send target plaintext) side.other).frames (c side) := by
    obtain ⟨more, hmore⟩ := hframes side.other
    rw [hmore]
    refine ⟨?_, ?_, (h.reads side).running⟩
    · rw [List.flatMap_append]
      exact (h.reads side).received.trans (List.prefix_append _ _)
    · rw [List.take_append_of_le_length (h.returned_le side)]
      exact (h.reads side).unread
  -- the reader of the new frame is the other endpoint, whose own fields stay
  have hall : ∀ side, Reads aead (c.step aead (.send target plaintext) side.other).frames
      (c.step aead (.send target plaintext) side) :=
    forall_update (P := fun side =>
      Reads aead (c.step aead (.send target plaintext) side.other).frames)
      ⟨(hreads target).received, (hreads target).unread, (hreads target).running⟩ hreads
  have hreadable : ∀ side, ∀ frame ∈ (c.step aead (.send target plaintext) side).frames, _ :=
    forall_update (P := fun _ party => ∀ frame ∈ party.frames, frame.Readable aead)
      (fun frame hmem => ?_) h.readable
  · exact ⟨horder, hreadable, hall⟩
  · rcases List.mem_append.mp hmem with hold | hnew
    · exact h.readable target frame hold
    · cases List.mem_singleton.mp hnew
      exact ⟨length_nonceFromCounter _, hsize⟩

theorem Forwarded.step_deliver {target : Side} {bytes : Bytes}
    (hforwards : Forwards aead c (.deliver target bytes)) :
    Forwarded aead (c.step aead (.deliver target bytes)) := by
  refine h.update ((inOrder_step_iff aead c (.deliver target bytes) h.order).mpr trivial) rfl
    ⟨hforwards, ?_, (h.reads target).running⟩
  rw [Party.deliver, (h.reads target).unread, List.append_assoc]

theorem Forwarded.step_read (target : Side) : Forwarded aead (c.step aead (.read target)) := by
  have horder := (inOrder_step_iff aead c (.read target) h.order).mpr (h.handsOverNext _)
  rcases h.read target with hwait | ⟨frame, rest, hget, hstream, hread⟩
  · have hsame : c.step aead (.read target) = c := by
      rw [Channel.step, Party.read, if_neg (by simp [(h.reads target).running]), hwait]
      exact Function.update_eq_self target c
    rwa [hsame] at horder ⊢
  · have htake : (c target.other).frames.take ((c target).returned.length + 1) =
        (c target.other).frames.take (c target).returned.length ++ [frame] := by
      rw [List.take_add_one, hget]
      rfl
    rw [Channel.step, Party.read, if_neg (by simp [(h.reads target).running]), hread] at horder ⊢
    refine h.update horder rfl ⟨(h.reads target).received, ?_, (h.reads target).running⟩
    simp only [List.length_append, List.length_singleton, htake, List.flatMap_append,
      List.flatMap_singleton, List.append_assoc, ← hstream]
    exact (h.reads target).unread

end Forwarding

theorem forwarded_of_forwards {aead : Aead} {as : List ChannelAction}
    (has : along (Channel.step aead) (Forwards aead) Channel.start as) :
    Forwarded aead (run (Channel.step aead) Channel.start as) := by
  have hstart : Forwarded aead Channel.start :=
    ⟨fun _ => List.prefix_refl _, fun _ _ hmem => (nomatch hmem), fun _ =>
      ⟨List.prefix_refl _, rfl, rfl⟩⟩
  refine run_invariant_along (fun c a h ha => ?_) hstart has
  cases a with
  | send target plaintext => exact h.step_send ha
  | deliver target bytes => exact h.step_deliver ha
  | read target => exact h.step_read target

/-- What the endpoints get from each other over a relay that forwards: no reader fails, what it
returns is what was sent, in order, and nothing is lost on the way. -/
structure Delivered (aead : Aead) (c : Channel) (side : Side) : Prop where
  running : (c side).stopped = false
  order : (c side).returned <+: (c side.other).sent
  complete : (c side).received = (c side.other).wire aead →
    readE2eFrameFrom aead c.log (c side).stream = .incomplete →
      (c side).returned = (c side.other).sent

theorem forwarding_relay_delivers (aead : Aead) (as : List ChannelAction)
    (has : along (Channel.step aead) (Forwards aead) Channel.start as) (side : Side) :
    Delivered aead (run (Channel.step aead) Channel.start as) side :=
  have h := forwarded_of_forwards has
  ⟨(h.reads side).running, h.order side, h.returned_eq⟩

/-- The greeting of the worker arrives in two parts. -/
def forwardedGreeting : List ChannelAction :=
  [.send .worker [104, 105], .deliver .viewer [0, 0, 0, 14, 0],
    .deliver .viewer (List.replicate 11 0 ++ [104, 105]), .read .viewer]

theorem forwarding_relay_delivers_greeting :
    Delivered plainAead (run (Channel.step plainAead) Channel.start forwardedGreeting) .viewer :=
  forwarding_relay_delivers plainAead forwardedGreeting ⟨show _ ≤ _ by decide,
    show _ <+: _ by decide, show _ <+: _ by decide, trivial, trivial⟩ .viewer

end Talos.Relay
