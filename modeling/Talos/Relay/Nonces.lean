import Mathlib.Data.List.Basic
import Talos.Relay.Transport

/-!
# Nonces of a relay session

Each endpoint numbers its frames from zero: the hello frame has the counter 0, and the writer
of the connection goes on from 1. The endpoints encrypt under one key, so the frames that have
the same number at both have the same nonce, and a nonce is never used for two plaintexts
exactly when the endpoints send the same plaintext at every number that both reach.
-/

namespace Talos.Relay

/-! ## The senders -/

def helloWorld : Bytes := "hello-world".toUTF8.toList

def heartbeatPayload : Bytes := "heartbeat".toUTF8.toList

/-- What a writer task waits for. -/
inductive WriterEvent where
  | tick
  | message (frame : Bytes)
  | closed

/-- `run_relay_writer` of the viewer, from a counter on. -/
def runRelayWriter : ℕ → Bool → List WriterEvent → List Frame
  | _, _, [] => []
  | counter, controlClosed, .tick :: events =>
    let (frame, counter) := writeE2eFrame counter heartbeatPayload
    frame :: runRelayWriter counter controlClosed events
  | counter, controlClosed, .message payload :: events =>
    if controlClosed then runRelayWriter counter controlClosed events
    else
      let (frame, counter) := writeE2eFrame counter payload
      frame :: runRelayWriter counter controlClosed events
  | counter, _, .closed :: events => runRelayWriter counter true events

/-- `run_shell_relay_writer` of the worker, from a counter on. -/
def runShellRelayWriter : ℕ → List WriterEvent → List Frame
  | _, [] => []
  | counter, .tick :: events =>
    let (frame, counter) := writeE2eFrame counter heartbeatPayload
    frame :: runShellRelayWriter counter events
  | counter, .message payload :: events =>
    let (frame, counter) := writeE2eFrame counter payload
    frame :: runShellRelayWriter counter events
  | _, .closed :: _ => []

def writeFrames : ℕ → List Bytes → List Frame
  | _, [] => []
  | counter, plaintext :: plaintexts =>
    let (frame, counter) := writeE2eFrame counter plaintext
    frame :: writeFrames counter plaintexts

/-- The viewer, and the worker with a shell or with a desktop. -/
inductive Endpoint where
  | viewer (events : List WriterEvent)
  | shell (events : List WriterEvent)
  | desktop (rdpSessionsPayload : Bytes) (chunks : List Bytes)

def Endpoint.frames : Endpoint → List Frame
  | .viewer events => (writeE2eFrame 0 helloWorld).1 :: runRelayWriter 1 false events
  | .shell events => (writeE2eFrame 0 helloWorld).1 :: runShellRelayWriter 1 events
  | .desktop rdpSessionsPayload chunks => writeFrames 0 (helloWorld :: rdpSessionsPayload :: chunks)

/-! ## What is sent -/

def viewerPayloads : Bool → List WriterEvent → List Bytes
  | _, [] => []
  | controlClosed, .tick :: events => heartbeatPayload :: viewerPayloads controlClosed events
  | controlClosed, .message payload :: events =>
    if controlClosed then viewerPayloads controlClosed events
    else payload :: viewerPayloads controlClosed events
  | _, .closed :: events => viewerPayloads true events

def shellPayloads : List WriterEvent → List Bytes
  | [] => []
  | .tick :: events => heartbeatPayload :: shellPayloads events
  | .message payload :: events => payload :: shellPayloads events
  | .closed :: _ => []

def Endpoint.plaintexts : Endpoint → List Bytes
  | .viewer events => helloWorld :: viewerPayloads false events
  | .shell events => helloWorld :: shellPayloads events
  | .desktop rdpSessionsPayload chunks => helloWorld :: rdpSessionsPayload :: chunks

theorem runRelayWriter_eq (counter : ℕ) (controlClosed : Bool) (events : List WriterEvent) :
    runRelayWriter counter controlClosed events =
      writeFrames counter (viewerPayloads controlClosed events) := by
  induction events generalizing counter controlClosed with
  | nil => rfl
  | cons event events ih =>
    cases event with
    | tick => exact congrArg _ (ih _ _)
    | closed => exact ih _ _
    | message payload =>
      cases controlClosed with
      | true => exact ih _ _
      | false => exact congrArg _ (ih _ _)

theorem runShellRelayWriter_eq (counter : ℕ) (events : List WriterEvent) :
    runShellRelayWriter counter events = writeFrames counter (shellPayloads events) := by
  induction events generalizing counter with
  | nil => rfl
  | cons event events ih =>
    cases event with
    | tick => exact congrArg _ (ih _)
    | message payload => exact congrArg _ (ih _)
    | closed => rfl

theorem saturatingAdd_one {counter : ℕ} (h : counter + 1 < 2 ^ 64) :
    Rust.saturatingAdd counter 1 = counter + 1 := by
  unfold Rust.saturatingAdd Rust.u64Max
  omega

/-- The hello frame is the first that is written with the counter of the endpoint. -/
theorem Endpoint.frames_eq (endpoint : Endpoint) :
    endpoint.frames = writeFrames 0 endpoint.plaintexts := by
  have hone : Rust.saturatingAdd 0 1 = 1 := saturatingAdd_one (by norm_num)
  cases endpoint with
  | viewer events =>
    rw [frames, plaintexts, runRelayWriter_eq, writeFrames, writeE2eFrame, hone]
  | shell events =>
    rw [frames, plaintexts, runShellRelayWriter_eq, writeFrames, writeE2eFrame, hone]
  | desktop rdpSessionsPayload chunks => rfl

theorem getElem?_writeFrames {counter : ℕ} {plaintexts : List Bytes}
    (h : counter + plaintexts.length < 2 ^ 64) (n : ℕ) :
    (writeFrames counter plaintexts)[n]? =
      plaintexts[n]?.map fun plaintext => ⟨nonceFromCounter (counter + n), plaintext⟩ := by
  induction plaintexts generalizing counter n with
  | nil => rfl
  | cons plaintext plaintexts ih =>
    rw [List.length_cons] at h
    cases n with
    | zero => rfl
    | succ n =>
      have hnext : Rust.saturatingAdd counter 1 = counter + 1 := saturatingAdd_one (by omega)
      have hrest : (writeFrames (counter + 1) plaintexts)[n]? = _ := ih (by omega) n
      rw [writeFrames, writeE2eFrame, hnext, List.getElem?_cons_succ, List.getElem?_cons_succ,
        hrest, Nat.add_right_comm, Nat.add_assoc]

/-! ## Nonces -/

/-- No nonce is used for two plaintexts. -/
def NoncesUnique (frames : List Frame) : Prop :=
  ∀ frame ∈ frames, ∀ other ∈ frames, frame.nonce = other.nonce → frame.plaintext = other.plaintext

/-- The number of a frame gives its nonce. -/
theorem Endpoint.mem_frames_iff {endpoint : Endpoint} (h : endpoint.plaintexts.length < 2 ^ 64)
    {frame : Frame} :
    frame ∈ endpoint.frames ↔ ∃ n plaintext, endpoint.plaintexts[n]? = some plaintext ∧
        frame = ⟨nonceFromCounter n, plaintext⟩ := by
  have hget : ∀ n, (writeFrames 0 endpoint.plaintexts)[n]? = _ := getElem?_writeFrames (by omega)
  rw [endpoint.frames_eq, List.mem_iff_getElem?]
  constructor
  · rintro ⟨n, hn⟩
    rw [hget n, Nat.zero_add] at hn
    obtain ⟨plaintext, hplaintext, rfl⟩ := Option.map_eq_some_iff.mp hn
    exact ⟨n, plaintext, hplaintext, rfl⟩
  · rintro ⟨n, plaintext, hplaintext, rfl⟩
    exact ⟨n, by rw [hget n, hplaintext, Nat.zero_add, Option.map_some]⟩

/-- The endpoints send the same at every number that both reach. -/
def Agree (first second : Endpoint) : Prop :=
  ∀ (n : ℕ) (x y : Bytes), first.plaintexts[n]? = some x → second.plaintexts[n]? = some y → x = y

theorem agree_refl (endpoint : Endpoint) : Agree endpoint endpoint :=
  fun _ _ _ hx hy => Option.some.inj (hx.symm.trans hy)

theorem Agree.symm {first second : Endpoint} (h : Agree first second) : Agree second first :=
  fun n x y hx hy => (h n y x hy hx).symm

theorem Agree.plaintext_eq {first second : Endpoint} (hagree : Agree first second)
    (hfirst : first.plaintexts.length < 2 ^ 64) (hsecond : second.plaintexts.length < 2 ^ 64)
    {frame other : Frame} (hframe : frame ∈ first.frames) (hother : other ∈ second.frames)
    (hnonce : frame.nonce = other.nonce) : frame.plaintext = other.plaintext := by
  obtain ⟨n, x, hx, rfl⟩ := (Endpoint.mem_frames_iff hfirst).mp hframe
  obtain ⟨m, y, hy, rfl⟩ := (Endpoint.mem_frames_iff hsecond).mp hother
  have hn : n < 2 ^ 64 := (List.getElem?_eq_some_iff.mp hx).1.trans hfirst
  have hm : m < 2 ^ 64 := (List.getElem?_eq_some_iff.mp hy).1.trans hsecond
  cases nonceFromCounter_injective hn hm hnonce
  exact hagree n x y hx hy

/-- The nonces are unique exactly when the viewer and the worker send the same at every number
that both reach. -/
theorem nonces_unique_iff (events : List WriterEvent) (worker : Endpoint)
    (hviewer : (Endpoint.viewer events).plaintexts.length < 2 ^ 64)
    (hworker : worker.plaintexts.length < 2 ^ 64) :
    NoncesUnique ((Endpoint.viewer events).frames ++ worker.frames) ↔
      Agree (.viewer events) worker := by
  constructor
  · intro hunique n x y hx hy
    exact hunique ⟨nonceFromCounter n, x⟩
      (List.mem_append_left _ ((Endpoint.mem_frames_iff hviewer).mpr ⟨n, x, hx, rfl⟩))
      ⟨nonceFromCounter n, y⟩
      (List.mem_append_right _ ((Endpoint.mem_frames_iff hworker).mpr ⟨n, y, hy, rfl⟩)) rfl
  · intro hagree frame hframe other hother hnonce
    rcases List.mem_append.mp hframe with hframe | hframe <;>
      rcases List.mem_append.mp hother with hother | hother
    · exact (agree_refl _).plaintext_eq hviewer hviewer hframe hother hnonce
    · exact hagree.plaintext_eq hviewer hworker hframe hother hnonce
    · exact hagree.symm.plaintext_eq hworker hviewer hframe hother hnonce
    · exact (agree_refl _).plaintext_eq hworker hworker hframe hother hnonce

/-- A viewer that only greets leaves the later nonces to the worker. -/
theorem nonces_unique_silent_viewer :
    NoncesUnique ((Endpoint.viewer []).frames ++
      (Endpoint.shell [.tick, .message [1]]).frames) := by
  refine (nonces_unique_iff [] _ (by decide +kernel) (by decide +kernel)).mpr fun n x y hx hy => ?_
  cases n with
  | zero => exact Option.some.inj (hx.symm.trans hy)
  | succ n => cases hx

/-- The viewer sends its heartbeat under the nonce that the worker uses for its first output. -/
theorem not_nonces_unique_heartbeat :
    ¬ NoncesUnique ((Endpoint.viewer [.tick]).frames ++
      (Endpoint.shell [.message [1]]).frames) := by
  intro hunique
  have hsame := hunique ⟨nonceFromCounter 1, heartbeatPayload⟩
    (List.mem_append_left _ (List.mem_cons_of_mem _ List.mem_cons_self))
    ⟨nonceFromCounter 1, [1]⟩
    (List.mem_append_right _ (List.mem_cons_of_mem _ List.mem_cons_self)) rfl
  exact absurd hsame (by decide +kernel)

end Talos.Relay
