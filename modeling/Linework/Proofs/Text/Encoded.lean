import Linework.Proofs.Text.Utf8

/-!
# Encoded texts

In whichever of the encodings at hand a text has been written, it is read again as it was
(`Encoding.faithful`).
-/

namespace Linework

namespace Encoding

variable {encoding : Encoding} {t : Text} {bytes : List UInt8} {codec : Text} {limit pos : Nat}

/-! ## One byte a character -/

theorem decodeSingle_encodeSingle (hlimit : limit ≤ 256) (h : encodeSingle codec limit pos t = .ok bytes) :
    decodeSingle codec limit pos bytes = .ok t := by
  induction t generalizing pos bytes with
  | nil =>
    cases h
    rfl
  | cons c rest ih =>
    rw [encodeSingle] at h
    split at h
    · rename_i hc
      cases hrest : encodeSingle codec limit (pos + 1) rest with
      | error fault =>
        rw [hrest] at h
        cases h
      | ok more =>
        rw [hrest] at h
        cases h
        have hbyte : (UInt8.ofNat c.toNat).toNat = c.toNat := toNat_byte (by omega)
        rw [decodeSingle, hbyte, if_pos hc, ih hrest, Except.map, CodePoint.ofNat_toNat]
    · cases h

/-! ## Sixteen bit units -/

theorem unitBytes_eq (unit : Nat) (h : unit < 0x10000) : ∃ a b : UInt8, unitBytes unit = [a, b] ∧
    a.toNat + 256 * b.toNat = unit := by
  refine ⟨_, _, rfl, ?_⟩
  rw [toNat_byte (by omega), toNat_byte (by omega)]
  omega

/-- A character is read from the units it is written in. -/
theorem decodeUtf16_utf16Bytes (c : Char) (rest : List UInt8) (pos : Nat) :
    ∃ next, decodeUtf16 pos (utf16Bytes c.toNat ++ rest) = (decodeUtf16 next rest).map (CodePoint.scalar c :: ·) := by
  have hvalid := c.valid
  simp only [UInt32.isValidChar, Nat.isValidChar] at hvalid
  have hv : c.toNat = c.val.toNat := rfl
  have hread : CodePoint.ofNat c.toNat = .scalar c := CodePoint.ofNat_toNat c
  by_cases hplane : c.toNat < 0x10000
  · obtain ⟨a, b, hbytes, hunit⟩ := unitBytes_eq _ hplane
    have hencode : utf16Bytes c.toNat = [a, b] := by rw [utf16Bytes, if_pos hplane, hbytes]
    refine ⟨pos + 2, ?_⟩
    rw [hencode]
    refine (decodeUtf16.eq_def _ _).trans ?_
    dsimp only [List.cons_append, List.nil_append]
    rw [hunit, if_pos (by simp; omega), hread]
  · obtain ⟨a, b, hhigh, hunit⟩ := unitBytes_eq (0xD800 + (c.toNat - 0x10000) / 0x400) (by omega)
    obtain ⟨e, f, hlow, hother⟩ := unitBytes_eq (0xDC00 + (c.toNat - 0x10000) % 0x400) (by omega)
    have hencode : utf16Bytes c.toNat = [a, b, e, f] := by
      rw [utf16Bytes, if_neg hplane, hhigh, hlow]
      rfl
    have hcode : 0x10000 + (0xD800 + (c.toNat - 0x10000) / 0x400 - 0xD800) * 0x400 +
        (0xDC00 + (c.toNat - 0x10000) % 0x400 - 0xDC00) = c.toNat := by omega
    refine ⟨pos + 4, ?_⟩
    rw [hencode]
    refine (decodeUtf16.eq_def _ _).trans ?_
    dsimp only [List.cons_append, List.nil_append]
    rw [hunit, hother, if_neg (by simp; omega), if_neg (by omega), if_pos (by simp; omega), hcode, hread]

theorem decodeUtf16_encodeUtf16 {first : Nat} (h : encodeUtf16 first t = .ok bytes) (pos : Nat) :
    decodeUtf16 pos bytes = .ok t := by
  fun_induction encodeUtf16 first t generalizing pos bytes with
  | case1 =>
    cases h
    rfl
  | case2 first c rest ih =>
    cases htail : encodeUtf16 (first + 1) rest with
    | error fault =>
      rw [htail] at h
      cases h
    | ok tail =>
      rw [htail] at h
      cases h
      obtain ⟨next, hdecode⟩ := decodeUtf16_utf16Bytes c tail pos
      dsimp only
      rw [hdecode, ih htail]
      rfl
  | case3 => cases h

/-! ## All encodings -/

/-- **What is written is read again.** -/
theorem decode_of_encode (h : encoding.encode t = .ok bytes) : encoding.decode bytes = .ok t := by
  cases encoding with
  | utf8 => exact decodeUtf8_encodeUtf8 h
  | utf8Marked =>
    change (encodeUtf8 0 t).map (byteOrderMark ++ ·) = .ok bytes at h
    cases hrest : encodeUtf8 0 t with
    | error fault =>
      rw [hrest] at h
      cases h
    | ok rest =>
      rw [hrest] at h
      cases h
      have hmark : byteOrderMark.isPrefixOf (byteOrderMark ++ rest) = true :=
        List.isPrefixOf_iff_prefix.2 (List.prefix_append _ _)
      have hdrop : (byteOrderMark ++ rest).drop 3 = rest := rfl
      unfold decode
      dsimp only
      rw [if_pos hmark, hdrop]
      exact decodeUtf8_encodeUtf8 hrest
  | latin1 => exact decodeSingle_encodeSingle (by decide) h
  | ascii => exact decodeSingle_encodeSingle (by decide) h
  | utf16le => exact decodeUtf16_encodeUtf16 h 0

/-- An empty file holds the empty text in every encoding. -/
theorem decode_nil (encoding : Encoding) : encoding.decode [] = .ok [] := by
  cases encoding <;> rfl

theorem faithful (encoding : Encoding) : encoding.codec.Faithful := ⟨decode_of_encode, decode_nil encoding⟩

end Encoding

/-- The codecs at hand read what they have written. -/
theorem Codecs.faithful_standard {name : Text} {codec : Codec} (h : Codecs.standard name = .ok codec) :
    codec.Faithful := by
  unfold Codecs.standard at h
  split at h
  · cases h
    exact Encoding.faithful _
  · cases h

end Linework
