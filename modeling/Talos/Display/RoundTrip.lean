import Talos.Display.Record

/-!
# Decoding inverts building

A body that is long enough is the concatenation of its fields, so the decoder is
evaluated on concatenations only. Both directions of the round trip and the absence of
an index outside the body come from this evaluation.
-/

namespace Talos.Display

open Rust

/-! ## Evaluating a decoder -/

variable {α β : Type}

@[simp] theorem lift_some_bind (a : α) (f : α → Decoder β) :
    (liftM (some a) : Decoder α) >>= f = f a := rfl

@[simp] theorem map_lift_some (f : α → β) (a : α) :
    f <$> (liftM (some a) : Decoder α) = pure (f a) := rfl

@[simp] theorem pure_bind_decoder (a : α) (f : α → Decoder β) :
    (pure a : Decoder α) >>= f = f a := rfl

@[simp] theorem throw_bind_decoder (e : DisplayRecordParseError) (f : α → Decoder β) :
    (throw e : Decoder α) >>= f = throw e := rfl

@[simp] theorem guardPayload_true : guardPayload true = pure () := rfl

@[simp] theorem guardPayload_false : guardPayload false = throw .invalidPayload := rfl

@[simp] theorem guardPayload_throw (valid : Bool) :
    (do guardPayload valid; throw .invalidPayload : Decoder α) = throw .invalidPayload := by
  cases valid <;> rfl

@[simp] theorem length_rect_bytes (rect : DisplayAtlasRect) : rect.bytes.length = 24 := by
  simp [DisplayAtlasRect.bytes]

@[simp] theorem length_flatMap_rects (rects : List DisplayAtlasRect) :
    (rects.flatMap DisplayAtlasRect.bytes).length = 24 * rects.length := by
  induction rects with
  | nil => rfl
  | cons rect rects ih =>
    rw [List.flatMap_cons, List.length_append, length_rect_bytes, ih, List.length_cons]
    ring

theorem toNat_lengthU32 {items : List α} (h : items.length < 2 ^ 32) :
    (lengthU32 items).toNat = items.length := by
  rw [lengthU32, UInt32.toNat_ofNat', Nat.mod_eq_of_lt h]

theorem lengthU32_eq {items : List α} {n : UInt32} (h : items.length = n.toNat) :
    lengthU32 items = n := by
  rw [lengthU32, h, UInt32.ofNat_toNat]

/-! ## Reading at an offset -/

section Reading

variable {payload rest : Bytes} {k : ℕ}

theorem readU32_drop (payload : Bytes) {k : ℕ} (h : k ≤ payload.length) (start : ℕ) :
    readU32 payload (k + start) = readU32 (payload.drop k) start := by
  conv_lhs => rw [← List.take_append_drop k payload]
  exact readU32_append (List.length_take_of_le h) _ _

theorem slice_of_drop {first : Bytes} {stop : ℕ} (h : payload.drop k = first ++ rest)
    (hk : k ≤ payload.length) (hstop : stop = k + first.length) :
    slice payload k stop = some first := by
  have hlength := congrArg List.length h
  rw [List.length_drop, List.length_append] at hlength
  rw [slice, if_pos (by omega), h, hstop, Nat.add_sub_cancel_left, List.take_left]

theorem decodeRect_of_drop {rect : DisplayAtlasRect} (h : payload.drop k = rect.bytes ++ rest)
    (hk : k ≤ payload.length) : decodeRect payload k = some rect := by
  have hfirst := readU32_drop payload hk 0
  rw [Nat.add_zero] at hfirst
  simp only [decodeRect, readU32_drop payload hk, hfirst, h]
  simp [DisplayAtlasRect.bytes]

theorem decodeRects_of_drop {atlasWidth atlasHeight : UInt32} {rects : List DisplayAtlasRect}
    (h : payload.drop k = rects.flatMap DisplayAtlasRect.bytes ++ rest) (hk : k ≤ payload.length)
    (hinside : ∀ rect ∈ rects, rect.Inside atlasWidth atlasHeight) :
    decodeRects payload atlasWidth atlasHeight rects.length k = pure rects := by
  induction rects generalizing k with
  | nil => rfl
  | cons rect rects ih =>
    rw [List.flatMap_cons, List.append_assoc] at h
    obtain ⟨hrect, hinside⟩ := List.forall_mem_cons.mp hinside
    have hlength := congrArg List.length h
    have hnext : payload.drop (k + 24) = rects.flatMap DisplayAtlasRect.bytes ++ rest := by
      rw [← List.drop_drop, h, List.drop_left' (length_rect_bytes rect)]
    rw [List.length_drop, List.length_append, length_rect_bytes] at hlength
    rw [List.length_cons, decodeRects, decodeRect_of_drop h hk]
    simp only [lift_some_bind, rectRejected_eq_false.mpr hrect, Bool.not_false,
      guardPayload_true, pure_bind_decoder, ih hnext (by omega) hinside]

theorem drop_table {rects : List DisplayAtlasRect}
    (h : payload.drop k = rects.flatMap DisplayAtlasRect.bytes ++ rest) :
    payload.drop (k + rects.length * 24) = rest ++ [] := by
  rw [← List.drop_drop, h, List.drop_left' (by rw [length_flatMap_rects, Nat.mul_comm]),
    List.append_nil]

end Reading

/-! ## What a decoder accepts -/

/-- The decoder rejects the body, or returns a value with a property. -/
def Accepts {α : Type} (decoded : Decoder α) (Q : α → Prop) : Prop :=
  decoded = throw .invalidPayload ∨ ∃ a, decoded = pure a ∧ Q a

section Accepts

variable {α β : Type} {payload : Bytes} {k : ℕ}

theorem Accepts.bind {decoded : Decoder α} {f : α → Decoder β} {P : α → Prop} {Q : β → Prop}
    (hdecoded : Accepts decoded P) (hf : ∀ a, P a → Accepts (f a) Q) :
    Accepts (decoded >>= f) Q := by
  rcases hdecoded with rfl | ⟨a, rfl, ha⟩
  · exact .inl rfl
  · exact hf a ha

theorem accepts_guard (p : Prop) [Decidable p] : Accepts (guardPayload p) fun _ => p := by
  by_cases h : p
  · exact .inr ⟨(), by simp [h], h⟩
  · exact .inl (by simp [h])

theorem accepts_inside (rect : DisplayAtlasRect) (atlasWidth atlasHeight : UInt32) :
    Accepts (guardPayload !(rectRejected rect atlasWidth atlasHeight))
      fun _ => rect.Inside atlasWidth atlasHeight := by
  rw [← rectRejected_eq_false]
  cases rectRejected rect atlasWidth atlasHeight with
  | false => exact .inr ⟨(), rfl, rfl⟩
  | true => exact .inl rfl

theorem accepts_u32 (h : k + 4 ≤ payload.length) :
    Accepts (liftM (readU32 payload k) : Decoder UInt32)
      fun n => payload.drop k = u32Bytes n ++ payload.drop (k + 4) := by
  obtain ⟨n, rest, hrest⟩ : ∃ n rest, payload.drop k = u32Bytes n ++ rest :=
    exists_u32Bytes (by rw [List.length_drop]; omega)
  refine .inr ⟨n, ?_, ?_⟩
  · have hread := readU32_drop payload (show k ≤ payload.length by omega) 0
    rw [Nat.add_zero, hrest, readU32_u32Bytes] at hread
    rw [hread]
    rfl
  · rw [← List.drop_drop, hrest, List.drop_left' (length_u32Bytes n)]

theorem accepts_u64 (h : 8 ≤ payload.length) : Accepts (liftM (readU64 payload 0) : Decoder UInt64)
      fun n => payload = u64Bytes n ++ payload.drop 8 := by
  obtain ⟨n, rest, rfl⟩ : ∃ n rest, payload = u64Bytes n ++ rest := exists_u64Bytes h
  exact .inr ⟨n, by rw [readU64_u64Bytes]; rfl, by rw [List.drop_left' (length_u64Bytes n)]⟩

theorem accepts_rest {stop : ℕ} (h : k ≤ payload.length) (hstop : stop = payload.length) :
    Accepts (liftM (slice payload k stop) : Decoder Bytes)
      fun rest => payload.drop k = rest ∧ rest.length = stop - k := by
  subst hstop
  exact .inr ⟨payload.drop k, by rw [slice_to_end h]; rfl, rfl, List.length_drop ..⟩

theorem accepts_rects {atlasWidth atlasHeight : UInt32} (count : ℕ)
    (h : k + count * 24 ≤ payload.length) :
    Accepts (decodeRects payload atlasWidth atlasHeight count k) fun rects =>
      rects.length = count ∧ (∀ rect ∈ rects, rect.Inside atlasWidth atlasHeight) ∧
        payload.drop k = rects.flatMap DisplayAtlasRect.bytes ++ payload.drop (k + count * 24) := by
  induction count generalizing k with
  | zero => exact .inr ⟨[], rfl, rfl, by simp, by simp⟩
  | succ count ih =>
    obtain ⟨words, rest, hlen, hwords⟩ : ∃ (words : List UInt32) (rest : Bytes),
        words.length = 6 ∧ payload.drop k = words.flatMap u32Bytes ++ rest :=
      exists_words (by rw [List.length_drop]; omega)
    match words, hlen with
    | [dstX, dstY, width, height, atlasX, atlasY], _ =>
      have hrect : payload.drop k =
          (DisplayAtlasRect.mk dstX dstY width height atlasX atlasY).bytes ++ rest := by
        rw [hwords]
        simp [DisplayAtlasRect.bytes]
      have hrest : rest = payload.drop (k + 24) := by
        rw [← List.drop_drop, hrect, List.drop_left' (length_rect_bytes _)]
      rw [decodeRects, decodeRect_of_drop hrect (by omega), lift_some_bind]
      refine (accepts_inside _ _ _).bind fun _ hinside => (ih (by omega)).bind ?_
      rintro rects ⟨hcount, hrects, hdrop⟩
      refine .inr ⟨_, rfl, by rw [List.length_cons, hcount],
        List.forall_mem_cons.mpr ⟨hinside, hrects⟩, ?_⟩
      rw [hrect, hrest, hdrop, List.flatMap_cons, List.append_assoc]
      congr 3
      omega

end Accepts

/-! ## Bodies -/

variable {record : DisplayRecord}

theorem decodePayload_body (hvalid : record.Valid) (hlength : record.body.length < 2 ^ 32) :
    decodePayload record.messageType record.body = pure record := by
  cases record with
  | frameBegin frameId width height =>
    simp [DisplayRecord.messageType, DisplayRecord.body, decodePayload]
  | frameEnd frameId => simp [DisplayRecord.messageType, DisplayRecord.body, decodePayload]
  | keyframe frameId width height rawLen payload =>
    generalize hbody : (DisplayRecord.keyframe frameId width height rawLen payload).body = body
    simp only [DisplayRecord.body] at hbody
    have hlen : body.length = 20 + payload.length := by
      simp [← hbody]
      omega
    have hrest : body.drop 20 = payload ++ [] := by simp [← hbody]
    have hreads : readU64 body 0 = some frameId ∧ readU32 body 8 = some width ∧
        readU32 body 12 = some height ∧ readU32 body 16 = some rawLen := by simp [← hbody]
    simp [DisplayRecord.messageType, decodePayload, hreads, hlen,
      slice_of_drop hrest (by omega) rfl]
  | moveRect frameId srcX srcY dstX dstY width height =>
    simp [DisplayRecord.messageType, DisplayRecord.body, decodePayload]
  | atlasH264 frameId flags atlasWidth atlasHeight rects payload =>
    generalize hbody :
      (DisplayRecord.atlasH264 frameId flags atlasWidth atlasHeight rects payload).body = body
      at hlength ⊢
    simp only [DisplayRecord.body] at hbody
    obtain ⟨hwidth, hheight, hrects, hpayload, hinside⟩ := hvalid
    have hlen : body.length = 24 + rects.length * 24 + payload.length := by
      simp only [← hbody, List.length_append, length_flatMap_rects, length_u64Bytes,
        length_u32Bytes]
      omega
    have htable : body.drop 24 = rects.flatMap DisplayAtlasRect.bytes ++ payload := by
      simp [← hbody]
    have hreads : readU64 body 0 = some frameId ∧ readU32 body 8 = some flags ∧
        readU32 body 12 = some atlasWidth ∧ readU32 body 16 = some atlasHeight ∧
        readU32 body 20 = some (lengthU32 rects) := by simp [← hbody]
    have hcount : (lengthU32 rects).toNat = rects.length := toNat_lengthU32 (by omega)
    have hne : lengthU32 rects ≠ 0 := fun h =>
      hrects (List.length_eq_zero_iff.mp (hcount.symm.trans (congrArg UInt32.toNat h)))
    have hfits : 24 ≤ body.length ∧ 24 + rects.length * 24 < body.length :=
      ⟨by omega, by have := List.length_pos_iff.mpr hpayload; omega⟩
    simp [DisplayRecord.messageType, decodePayload, decodeAtlasH264, hreads, hcount, hwidth,
      hheight, hne, hfits, decodeRects_of_drop htable (by omega) hinside,
      slice_of_drop (drop_table htable) (by omega) hlen]
  | experimentalAtlasCommands frameId atlasWidth atlasHeight rects tileCommands =>
    generalize hbody : (DisplayRecord.experimentalAtlasCommands frameId atlasWidth atlasHeight rects
      tileCommands).body = body at hlength ⊢
    simp only [DisplayRecord.body] at hbody
    obtain ⟨hwidth, hheight, hinside⟩ := hvalid
    have hlen : body.length = 24 + rects.length * 24 + tileCommands.length := by
      simp only [← hbody, List.length_append, length_flatMap_rects, length_u64Bytes,
        length_u32Bytes]
      omega
    have htable : body.drop 24 = rects.flatMap DisplayAtlasRect.bytes ++ tileCommands := by
      simp [← hbody]
    have hreads : readU64 body 0 = some frameId ∧ readU32 body 8 = some atlasWidth ∧
        readU32 body 12 = some atlasHeight ∧ readU32 body 16 = some (lengthU32 rects) ∧
        readU32 body 20 = some (lengthU32 tileCommands) := by simp [← hbody]
    have hcounts : (lengthU32 rects).toNat = rects.length ∧
        (lengthU32 tileCommands).toNat = tileCommands.length :=
      ⟨toNat_lengthU32 (by omega), toNat_lengthU32 (by omega)⟩
    have hfits : 24 ≤ body.length := by omega
    simp [DisplayRecord.messageType, decodePayload, decodeExperimentalAtlasCommands, hreads,
      hcounts, hwidth, hheight, hfits, ← hlen, decodeRects_of_drop htable hfits hinside,
      slice_of_drop (drop_table htable) (by omega) hlen]
  | experimentalAtlasCommandsChunk frameId flags chunkIndex chunkCount atlasWidth atlasHeight rects
      tileCommands =>
      generalize hbody : (DisplayRecord.experimentalAtlasCommandsChunk frameId flags chunkIndex
        chunkCount atlasWidth atlasHeight rects tileCommands).body = body at hlength ⊢
      simp only [DisplayRecord.body] at hbody
      obtain ⟨hwidth, hheight, hchunk, hinside⟩ := hvalid
      have hlen : body.length = 36 + rects.length * 24 + tileCommands.length := by
        simp only [← hbody, List.length_append, length_flatMap_rects, length_u64Bytes,
          length_u32Bytes]
        omega
      have htable : body.drop 36 = rects.flatMap DisplayAtlasRect.bytes ++ tileCommands := by
        simp [← hbody]
      have hreads : readU64 body 0 = some frameId ∧ readU32 body 8 = some flags ∧
          readU32 body 12 = some chunkIndex ∧ readU32 body 16 = some chunkCount ∧
          readU32 body 20 = some atlasWidth ∧ readU32 body 24 = some atlasHeight ∧
          readU32 body 28 = some (lengthU32 rects) ∧
          readU32 body 32 = some (lengthU32 tileCommands) := by simp [← hbody]
      have hcounts : (lengthU32 rects).toNat = rects.length ∧
          (lengthU32 tileCommands).toNat = tileCommands.length :=
        ⟨toNat_lengthU32 (by omega), toNat_lengthU32 (by omega)⟩
      have hne : chunkCount ≠ 0 := by
        rintro rfl
        exact absurd hchunk UInt32.not_lt_zero
      have hfits : 36 ≤ body.length := by omega
      simp [DisplayRecord.messageType, decodePayload, decodeExperimentalAtlasCommandsChunk, hreads,
        hcounts, hwidth, hheight, hne, hchunk, hfits, ← hlen,
        decodeRects_of_drop htable hfits hinside, slice_of_drop (drop_table htable) (by omega) hlen]

/-- The decoder rejects the body, or returns a record with this body that passes the checks. -/
def Inverts (decoded : Decoder DisplayRecord) (messageType : UInt8) (payload : Bytes) : Prop :=
  decoded = throw .invalidPayload ∨
    ∃ record : DisplayRecord, decoded = pure record ∧ record.messageType = messageType ∧
      record.body = payload ∧ record.Valid

theorem decodeAtlasH264_inverts (payload : Bytes) :
    Inverts (decodeAtlasH264 payload) 0x06 payload := by
  refine (accepts_guard _).bind fun _ hlength => ?_
  refine (accepts_u64 (by omega)).bind fun frameId hframe => ?_
  refine (accepts_u32 (by omega)).bind fun flags hflags => ?_
  refine (accepts_u32 (by omega)).bind fun atlasWidth hwidth => ?_
  refine (accepts_u32 (by omega)).bind fun atlasHeight hheight => ?_
  refine (accepts_u32 (by omega)).bind fun count hcount => ?_
  refine (accepts_guard _).bind fun _ hatlas => (accepts_guard _).bind fun _ hfits => ?_
  refine (accepts_rects _ (by omega)).bind ?_
  rintro rects ⟨hrects, hinside, htable⟩
  refine (accepts_rest (by omega) rfl).bind ?_
  rintro rest ⟨hrest, hlen⟩
  refine .inr ⟨_, rfl, rfl, ?_, hatlas.1, hatlas.2.1, ?_, ?_, hinside⟩
  · rw [DisplayRecord.body, lengthU32_eq hrects, ← hrest, ← htable, ← hcount, ← hheight, ← hwidth,
      ← hflags, ← hframe]
  · rintro rfl
    exact hatlas.2.2 (UInt32.toNat_inj.mp hrects.symm)
  · rw [← List.length_pos_iff]
    omega

theorem decodeExperimentalAtlasCommands_inverts (payload : Bytes) :
    Inverts (decodeExperimentalAtlasCommands payload) 0x07 payload := by
  refine (accepts_guard _).bind fun _ hlength => ?_
  refine (accepts_u64 (by omega)).bind fun frameId hframe => ?_
  refine (accepts_u32 (by omega)).bind fun atlasWidth hwidth => ?_
  refine (accepts_u32 (by omega)).bind fun atlasHeight hheight => ?_
  refine (accepts_u32 (by omega)).bind fun count hcount => ?_
  refine (accepts_u32 (by omega)).bind fun commandsLen hcommands => ?_
  refine (accepts_guard _).bind fun _ hatlas => (accepts_guard _).bind fun _ hfits => ?_
  refine (accepts_rects _ (by omega)).bind ?_
  rintro rects ⟨hrects, hinside, htable⟩
  refine (accepts_rest (by omega) hfits.symm).bind ?_
  rintro rest ⟨hrest, hlen⟩
  refine .inr ⟨_, rfl, rfl, ?_, hatlas.1, hatlas.2, hinside⟩
  rw [DisplayRecord.body, lengthU32_eq hrects,
    lengthU32_eq (hlen.trans (Nat.add_sub_cancel_left ..)), ← hrest, ← htable, ← hcommands,
    ← hcount, ← hheight, ← hwidth, ← hframe]

theorem decodeExperimentalAtlasCommandsChunk_inverts (payload : Bytes) :
    Inverts (decodeExperimentalAtlasCommandsChunk payload) 0x08 payload := by
  refine (accepts_guard _).bind fun _ hlength => ?_
  refine (accepts_u64 (by omega)).bind fun frameId hframe => ?_
  refine (accepts_u32 (by omega)).bind fun flags hflags => ?_
  refine (accepts_u32 (by omega)).bind fun chunkIndex hindex => ?_
  refine (accepts_u32 (by omega)).bind fun chunkCount hchunks => ?_
  refine (accepts_u32 (by omega)).bind fun atlasWidth hwidth => ?_
  refine (accepts_u32 (by omega)).bind fun atlasHeight hheight => ?_
  refine (accepts_u32 (by omega)).bind fun count hcount => ?_
  refine (accepts_u32 (by omega)).bind fun commandsLen hcommands => ?_
  refine (accepts_guard _).bind fun _ hatlas => (accepts_guard _).bind fun _ hfits => ?_
  refine (accepts_rects _ (by omega)).bind ?_
  rintro rects ⟨hrects, hinside, htable⟩
  refine (accepts_rest (by omega) hfits.symm).bind ?_
  rintro rest ⟨hrest, hlen⟩
  refine .inr ⟨_, rfl, rfl, ?_, hatlas.1, hatlas.2.1, hatlas.2.2.2, hinside⟩
  rw [DisplayRecord.body, lengthU32_eq hrects,
    lengthU32_eq (hlen.trans (Nat.add_sub_cancel_left ..)), ← hrest, ← htable, ← hcommands,
    ← hcount, ← hheight, ← hwidth, ← hchunks, ← hindex, ← hflags, ← hframe]

theorem decodePayload_inverts (messageType : UInt8) (payload : Bytes) :
    Inverts (decodePayload messageType payload) messageType payload := by
  unfold decodePayload
  split
  · refine (accepts_guard _).bind fun _ hlength => ?_
    refine (accepts_u64 (by omega)).bind fun frameId hframe => ?_
    refine (accepts_u32 (by omega)).bind fun width hwidth => ?_
    refine (accepts_u32 (by omega)).bind fun height hheight => .inr ⟨_, rfl, rfl, ?_, trivial⟩
    rw [List.drop_of_length_le (i := 12 + 4) (by omega), List.append_nil] at hheight
    rw [DisplayRecord.body, ← hheight, ← hwidth, ← hframe]
  · refine (accepts_guard _).bind fun _ hlength => ?_
    refine (accepts_u64 (by omega)).bind fun frameId hframe => .inr ⟨_, rfl, rfl, ?_, trivial⟩
    rw [List.drop_of_length_le (by omega), List.append_nil] at hframe
    exact hframe.symm
  · refine (accepts_guard _).bind fun _ hlength => ?_
    refine (accepts_u64 (by omega)).bind fun frameId hframe => ?_
    refine (accepts_u32 (by omega)).bind fun width hwidth => ?_
    refine (accepts_u32 (by omega)).bind fun height hheight => ?_
    refine (accepts_u32 (by omega)).bind fun rawLen hraw => ?_
    refine (accepts_rest (by omega) rfl).bind fun rest hrest => .inr ⟨_, rfl, rfl, ?_, trivial⟩
    rw [DisplayRecord.body, ← hrest.1, ← hraw, ← hheight, ← hwidth, ← hframe]
  · refine (accepts_guard _).bind fun _ hlength => ?_
    refine (accepts_u64 (by omega)).bind fun frameId hframe => ?_
    refine (accepts_u32 (by omega)).bind fun srcX hsrcX => ?_
    refine (accepts_u32 (by omega)).bind fun srcY hsrcY => ?_
    refine (accepts_u32 (by omega)).bind fun dstX hdstX => ?_
    refine (accepts_u32 (by omega)).bind fun dstY hdstY => ?_
    refine (accepts_u32 (by omega)).bind fun width hwidth => ?_
    refine (accepts_u32 (by omega)).bind fun height hheight => .inr ⟨_, rfl, rfl, ?_, trivial⟩
    rw [List.drop_of_length_le (i := 28 + 4) (by omega), List.append_nil] at hheight
    rw [DisplayRecord.body, ← hheight, ← hwidth, ← hdstY, ← hdstX, ← hsrcY, ← hsrcX, ← hframe]
  · exact decodeAtlasH264_inverts payload
  · exact decodeExperimentalAtlasCommands_inverts payload
  · exact decodeExperimentalAtlasCommandsChunk_inverts payload
  · exact .inl rfl

/-! ## Frames -/

theorem decodeDisplayRecord_append (messageType : UInt8) {len : UInt32} {payload : Bytes}
    (h : payload.length = len.toNat) :
    decodeDisplayRecord (messageType :: (u32Bytes len ++ payload)) =
      decodePayload messageType payload := by
  generalize hframe : messageType :: (u32Bytes len ++ payload) = frame
  have hlength : frame.length = 5 + payload.length := by
    simp [← hframe]
    omega
  have hlen : readU32 frame 1 = some len := by
    rw [← hframe]
    exact (readU32_append (rfl : [messageType].length = 1) _ 0).trans (readU32_u32Bytes len payload)
  have htype : frame[0]? = some messageType := by simp [← hframe]
  have hpayload : slice frame 5 frame.length = some payload := by
    rw [slice_to_end (by omega), ← hframe]
    simp
  have hnot : ¬frame.length < 5 := by omega
  have heq : ¬frame.length ≠ 5 + len.toNat := by omega
  simp only [decodeDisplayRecord, parseDisplayRecord, hlen, htype, hpayload, hnot, heq, if_false,
    lift_some_bind, pure_bind_decoder]

theorem decodeDisplayRecord_cases (frame : Bytes) : (∃ e, decodeDisplayRecord frame = throw e) ∨
      ∃ messageType payload, frame = buildDisplayRecord messageType payload ∧
        decodeDisplayRecord frame = decodePayload messageType payload := by
  match frame with
  | [] => exact .inl ⟨.tooShort, rfl⟩
  | messageType :: rest =>
    by_cases hshort : rest.length < 4
    · refine .inl ⟨.tooShort, ?_⟩
      have hlength : (messageType :: rest).length < 5 := by
        rw [List.length_cons]
        omega
      simp only [decodeDisplayRecord, parseDisplayRecord, hlength, if_true, throw_bind_decoder]
    · obtain ⟨len, payload, rfl⟩ : ∃ len payload, rest = u32Bytes len ++ payload :=
        exists_u32Bytes (by omega)
      by_cases hlen : payload.length = len.toNat
      · refine .inr ⟨messageType, payload, ?_, decodeDisplayRecord_append messageType hlen⟩
        rw [buildDisplayRecord, lengthU32_eq hlen]
      · refine .inl ⟨.lengthMismatch, ?_⟩
        have hread : readU32 (messageType :: (u32Bytes len ++ payload)) 1 = some len :=
          (readU32_append (rfl : [messageType].length = 1) _ 0).trans (readU32_u32Bytes len payload)
        have hlength : (messageType :: (u32Bytes len ++ payload)).length = 5 + payload.length := by
          simp
          omega
        have hnot : ¬5 + payload.length < 5 := by omega
        have hne : 5 + payload.length ≠ 5 + len.toNat := by omega
        simp only [decodeDisplayRecord, parseDisplayRecord, hread, hlength, hnot, hne, if_false,
          ne_eq, not_false_eq_true, if_true, lift_some_bind, throw_bind_decoder]

theorem decodeDisplayRecord_build (hvalid : record.Valid) (hlength : record.body.length < 2 ^ 32) :
    decodeDisplayRecord record.build = pure record := by
  rw [record.build_eq, buildDisplayRecord,
    decodeDisplayRecord_append _ (toNat_lengthU32 hlength).symm, decodePayload_body hvalid hlength]

/-- What is decoded passes the checks, and its frame is what the builder makes of it. -/
theorem of_decodeDisplayRecord {frame : Bytes} (h : decodeDisplayRecord frame = pure record) :
    record.Valid ∧ frame = record.build := by
  rcases decodeDisplayRecord_cases frame with ⟨e, he⟩ | ⟨messageType, payload, rfl, heval⟩
  · cases he.symm.trans h
  · rcases decodePayload_inverts messageType payload with hnot | ⟨found, hfound, rfl, rfl, hvalid⟩
    · cases (hnot.symm.trans heval.symm).trans h
    · cases (hfound.symm.trans heval.symm).trans h
      exact ⟨hvalid, record.build_eq.symm⟩

theorem decodeDisplayRecord_ne_none (frame : Bytes) :
    (decodeDisplayRecord frame : Option _) ≠ none := by
  rcases decodeDisplayRecord_cases frame with ⟨e, he⟩ | ⟨messageType, payload, rfl, heval⟩
  · rw [he]
    exact fun h => nomatch h
  · rw [heval]
    rcases decodePayload_inverts messageType payload with hnot | ⟨found, hfound, _⟩
    · rw [hnot]
      exact fun h => nomatch h
    · rw [hfound]
      exact fun h => nomatch h

/-- Decoding inverts building on the records that pass the decoder's checks, every frame
that is accepted was built from the decoded record, and no frame makes the decoder index
outside it. -/
theorem decode_display_record_round_trip :
    (∀ record : DisplayRecord, record.Valid → record.body.length < 2 ^ 32 →
      decodeDisplayRecord record.build = pure record) ∧
    (∀ frame record, decodeDisplayRecord frame = pure record → frame = record.build) ∧
    ∀ frame, (decodeDisplayRecord frame : Option _) ≠ none := by
  exact ⟨fun record hvalid hlength => decodeDisplayRecord_build hvalid hlength,
    fun frame record hdecoded => (of_decodeDisplayRecord hdecoded).2, decodeDisplayRecord_ne_none⟩

theorem decode_display_record_round_trip_chunk :
    let record : DisplayRecord := .experimentalAtlasCommandsChunk 7 1 0 2 64 64
      [⟨10, 20, 16, 16, 48, 0⟩] [1, 2, 3]
    record.Valid ∧ decodeDisplayRecord record.build = pure record := by
  intro record
  have hvalid : record.Valid := by
    refine ⟨by decide, by decide, by decide, fun rect hrect => ?_⟩
    obtain rfl := List.mem_singleton.mp hrect
    exact ⟨by decide, by decide, by decide, by decide⟩
  exact ⟨hvalid, decode_display_record_round_trip.1 record hvalid (by decide)⟩

end Talos.Display
