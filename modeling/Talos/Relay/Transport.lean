import Talos.Rust.Bytes
import Talos.Rust.Core

/-!
# Frames of a relay session

The two endpoints of a session share a key and talk over a relay. A frame is the length of what
follows, the nonce and the ciphertext. The nonce is made of a counter of the sender; the reader
takes the nonce that comes with the frame.

The cipher is ideal: what decrypts under the key is what some endpoint has encrypted under it
with the same nonce, so `decrypt` looks the ciphertext up among the frames so far.
-/

namespace Talos.Relay

abbrev Bytes := List UInt8

/-- Encryption under the session key, of a nonce and a plaintext. -/
structure Aead where
  encrypt : Bytes → Bytes → Bytes
  injective : ∀ nonce, Function.Injective (encrypt nonce)

structure Frame where
  nonce : Bytes
  plaintext : Bytes
deriving DecidableEq

def nonceFromCounter (counter : ℕ) : Bytes := List.replicate 4 0 ++ Rust.toBeBytes 8 counter

def writeE2eFrame (counter : ℕ) (plaintext : Bytes) : Frame × ℕ :=
  (⟨nonceFromCounter counter, plaintext⟩, Rust.saturatingAdd counter 1)

@[simp] theorem length_nonceFromCounter (counter : ℕ) : (nonceFromCounter counter).length = 12 := by
  rw [nonceFromCounter, List.length_append, List.length_replicate, Rust.length_toBeBytes]

theorem nonceFromCounter_injective {n m : ℕ} (hn : n < 2 ^ 64) (hm : m < 2 ^ 64)
    (h : nonceFromCounter n = nonceFromCounter m) : n = m := by
  have hpow : (2 : ℕ) ^ 64 = 256 ^ 8 := by norm_num
  rw [hpow] at hn hm
  exact Rust.toBeBytes_injective hn hm (List.append_cancel_left h)

/-! ## Bytes -/

def Frame.ciphertext (aead : Aead) (frame : Frame) : Bytes :=
  aead.encrypt frame.nonce frame.plaintext

/-- What `write_e2e_frame` writes to the stream. -/
def Frame.bytes (aead : Aead) (frame : Frame) : Bytes :=
  Rust.toBeBytes 4 ((frame.nonce.length + (frame.ciphertext aead).length) % 2 ^ 32) ++
    frame.nonce ++ frame.ciphertext aead

/-- The plaintext, if the ciphertext was made under the key with the nonce. -/
def decrypt (aead : Aead) (log : List Frame) (nonce ciphertext : Bytes) : Option Bytes :=
  (log.find? fun frame => frame.nonce = nonce && frame.ciphertext aead = ciphertext).map
    Frame.plaintext

theorem decrypt_ciphertext {aead : Aead} {log : List Frame} {frame : Frame} (hmem : frame ∈ log) :
    decrypt aead log frame.nonce (frame.ciphertext aead) = some frame.plaintext := by
  have hsome : (log.find? fun other => other.nonce = frame.nonce &&
      other.ciphertext aead = frame.ciphertext aead).isSome := by
    rw [List.find?_isSome]
    exact ⟨frame, hmem, by simp⟩
  obtain ⟨found, hfound⟩ := Option.isSome_iff_exists.mp hsome
  have hmatches := List.find?_some hfound
  simp only [Bool.and_eq_true, decide_eq_true_eq] at hmatches
  obtain ⟨hnonce, hciphertext⟩ := hmatches
  rw [Frame.ciphertext, Frame.ciphertext, hnonce] at hciphertext
  rw [decrypt, hfound, Option.map_some, aead.injective _ hciphertext]

theorem mem_of_decrypt {aead : Aead} {log : List Frame} {nonce ciphertext plaintext : Bytes}
    (h : decrypt aead log nonce ciphertext = some plaintext) :
    ⟨nonce, plaintext⟩ ∈ log ∧ ciphertext = aead.encrypt nonce plaintext := by
  obtain ⟨frame, hfound, rfl⟩ := Option.map_eq_some_iff.mp h
  have hmatches := List.find?_some hfound
  simp only [Bool.and_eq_true, decide_eq_true_eq] at hmatches
  obtain ⟨rfl, rfl⟩ := hmatches
  exact ⟨List.mem_of_find?_eq_some hfound, rfl⟩

def maxFrameBytes : ℕ := 128 * 1024 * 1024

/-- What `read_e2e_frame_from` finds in the bytes of the stream: it waits for more, fails, or
returns a plaintext and leaves the rest. -/
inductive Read where
  | incomplete
  | failed
  | frame (plaintext rest : Bytes)
deriving DecidableEq

def readE2eFrameFrom (aead : Aead) (log : List Frame) (stream : Bytes) : Read :=
  if stream.length < 4 then .incomplete
  else
    let frameLen := Rust.ofBeBytes (stream.take 4)
    let body := stream.drop 4
    if frameLen < 12 then .failed
    else if maxFrameBytes < frameLen then .failed
    else if body.length < frameLen then .incomplete
    else
      let frame := body.take frameLen
      match decrypt aead log (frame.take 12) (frame.drop 12) with
      | some plaintext => .frame plaintext (body.drop frameLen)
      | none => .failed

/-- A frame that a reader accepts. -/
structure Frame.Readable (aead : Aead) (frame : Frame) : Prop where
  nonce : frame.nonce.length = 12
  size : 12 + (frame.ciphertext aead).length ≤ maxFrameBytes

theorem readE2eFrameFrom_bytes {aead : Aead} {log : List Frame} {frame : Frame} (rest : Bytes)
    (hmem : frame ∈ log) (hreadable : frame.Readable aead) :
    readE2eFrameFrom aead log (frame.bytes aead ++ rest) = .frame frame.plaintext rest := by
  obtain ⟨hnonce, hsize⟩ := hreadable
  have hmax : maxFrameBytes < 2 ^ 32 := by decide
  have hmod : (frame.nonce.length + (frame.ciphertext aead).length) % 2 ^ 32 =
      12 + (frame.ciphertext aead).length := by
    rw [hnonce, Nat.mod_eq_of_lt (hsize.trans_lt hmax)]
  have hbytes : frame.bytes aead ++ rest = Rust.toBeBytes 4 (12 + (frame.ciphertext aead).length) ++
        (frame.nonce ++ frame.ciphertext aead ++ rest) := by
    rw [Frame.bytes, hmod]
    simp only [List.append_assoc]
  have hbody : (frame.nonce ++ frame.ciphertext aead).length =
      12 + (frame.ciphertext aead).length := by rw [List.length_append, hnonce]
  have hlen : Rust.ofBeBytes (Rust.toBeBytes 4 (12 + (frame.ciphertext aead).length)) =
      12 + (frame.ciphertext aead).length :=
    Rust.ofBeBytes_toBeBytes (by
      calc 12 + (frame.ciphertext aead).length ≤ maxFrameBytes := hsize
        _ < 256 ^ 4 := by decide)
  have htake : (Rust.toBeBytes 4 (12 + (frame.ciphertext aead).length) ++
      (frame.nonce ++ frame.ciphertext aead ++ rest)).take 4 =
        Rust.toBeBytes 4 (12 + (frame.ciphertext aead).length) :=
    List.take_left' (Rust.length_toBeBytes 4 _)
  have hdrop : (Rust.toBeBytes 4 (12 + (frame.ciphertext aead).length) ++
      (frame.nonce ++ frame.ciphertext aead ++ rest)).drop 4 =
        frame.nonce ++ frame.ciphertext aead ++ rest :=
    List.drop_left' (Rust.length_toBeBytes 4 _)
  have hframe : (frame.nonce ++ frame.ciphertext aead ++ rest).take
      (12 + (frame.ciphertext aead).length) = frame.nonce ++ frame.ciphertext aead :=
    List.take_left' hbody
  have hrest : (frame.nonce ++ frame.ciphertext aead ++ rest).drop
      (12 + (frame.ciphertext aead).length) = rest := List.drop_left' hbody
  unfold readE2eFrameFrom
  rw [hbytes, if_neg (by simp)]
  simp only [htake, hdrop, hlen]
  rw [if_neg (by omega), if_neg (by omega), if_neg (by simp [hnonce])]
  rw [hframe, hrest, List.take_left' hnonce, List.drop_left' hnonce, decrypt_ciphertext hmem]

/-- What is returned stands as a frame of the log in front of the rest. -/
theorem exists_frame_of_read {aead : Aead} {log : List Frame} {stream plaintext rest : Bytes}
    (h : readE2eFrameFrom aead log stream = .frame plaintext rest) :
    ∃ frame ∈ log, frame.Readable aead ∧ frame.plaintext = plaintext ∧
      stream = frame.bytes aead ++ rest := by
  unfold readE2eFrameFrom at h
  dsimp only at h
  split_ifs at h with hshort hsmall hlarge hpart
  split at h
  next found hfound =>
    cases h
    obtain ⟨hmem, hciphertext⟩ := mem_of_decrypt hfound
    set frameLen := Rust.ofBeBytes (stream.take 4) with hlen
    have htake : (stream.take 4).length = 4 := List.length_take_of_le (not_lt.mp hshort)
    have hbody : ((stream.drop 4).take frameLen).length = frameLen :=
      List.length_take_of_le (not_lt.mp hpart)
    have hnonce : (((stream.drop 4).take frameLen).take 12).length = 12 :=
      List.length_take_of_le (by omega)
    have hframe : (((stream.drop 4).take frameLen).take 12).length +
        (aead.encrypt (((stream.drop 4).take frameLen).take 12) plaintext).length = frameLen := by
      rw [← hciphertext, List.length_drop, hnonce, hbody]
      omega
    refine ⟨_, hmem, ⟨hnonce, ?_⟩, rfl, ?_⟩
    · rw [hnonce] at hframe
      exact hframe.le.trans (not_lt.mp hlarge)
    · have hmax : maxFrameBytes < 2 ^ 32 := by decide
      have hheader : Rust.toBeBytes 4 frameLen = stream.take 4 := by
        rw [hlen]
        nth_rewrite 1 [← htake]
        exact Rust.toBeBytes_ofBeBytes _
      rw [Frame.bytes, Frame.ciphertext, hframe, Nat.mod_eq_of_lt (by omega), hheader,
        ← hciphertext, List.append_assoc (stream.take 4), List.take_append_drop, List.append_assoc,
        List.take_append_drop, List.take_append_drop]
  · cases h

end Talos.Relay
