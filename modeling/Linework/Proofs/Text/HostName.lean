import Linework.Proofs.Text.Scalar
import Linework.Proofs.Text.Utf8
import Linework.Text.HostName

/-!
# Names that are listed

The name that bytes are shown as has just these bytes (`Text.hostBytes_ofHostBytes`). So a listed name is listed as it
is (`Text.listed_listed`), and so is a name without surrogates (`Text.listed_of_scalar`).
-/

namespace Linework

open Encoding

/-- Numbers that are no surrogates are characters. -/
theorem CodePoint.exists_scalar_ofNat {code : Nat} (h : code < 0xD800 ∨ 0xE000 ≤ code ∧ code < 0x110000) :
    ∃ c : Char, CodePoint.ofNat code = .scalar c ∧ c.val.toNat = code := by
  have hvalid : code.isValidChar := by
    simp only [Nat.isValidChar]
    omega
  refine ⟨Char.ofNat code, dif_neg (by omega), ?_⟩
  rw [Char.ofNat, dif_pos hvalid]
  rfl

namespace Text

variable {a : UInt8} {rest : List UInt8} {code extra : Nat} {name : Text}

/-- A character that has been read is written in the bytes that it was read from. -/
theorem hostBytes_of_readUtf8 (h : readUtf8 a rest = .ok (code, extra)) :
    (CodePoint.ofNat code).hostBytes = a :: rest.take extra ∧ extra ≤ rest.length := by
  cases readsAs_of_readUtf8 h with
  | one ha =>
    obtain ⟨ch, hch, hcode⟩ := CodePoint.exists_scalar_ofNat (.inl (by omega : a.toNat < 0xD800))
    rw [hch]
    exact ⟨utf8EncodeChar_one hcode ha, Nat.zero_le _⟩
  | @two b more x y ha hx hb hy =>
    obtain ⟨ch, hch, hcode⟩ := CodePoint.exists_scalar_ofNat (.inl (by omega : x * 64 + y < 0xD800))
    rw [hch]
    exact ⟨utf8EncodeChar_two hcode ha hx hb hy, by simp⟩
  | @three b c more x y z ha hx hb hy hc hz =>
    obtain ⟨ch, hch, hcode⟩ := CodePoint.exists_scalar_ofNat
      (by omega : (x * 64 + y) * 64 + z < 0xD800 ∨ 0xE000 ≤ (x * 64 + y) * 64 + z ∧ (x * 64 + y) * 64 + z < 0x110000)
    rw [hch]
    exact ⟨utf8EncodeChar_three hcode ha hx hb ⟨hy.1, hy.2.1⟩ hc hz, by simp⟩
  | @four b c d more x y z w ha hx hb hy hc hz hd hw =>
    obtain ⟨ch, hch, hcode⟩ := CodePoint.exists_scalar_ofNat (.inr
      (by omega : 0xE000 ≤ ((x * 64 + y) * 64 + z) * 64 + w ∧ ((x * 64 + y) * 64 + z) * 64 + w < 0x110000))
    rw [hch]
    exact ⟨utf8EncodeChar_four hcode ha hx hb ⟨hy.1, hy.2.1⟩ hc hz hd hw, by simp⟩

theorem hostBytes_ofByte {b : UInt8} (hb : 0x80 ≤ b.toNat) : (CodePoint.ofByte b).hostBytes = [b] := by
  have hbound := b.toNat_lt
  exact congrArg (fun low => [low]) (ofNat_eq_byte (n := 0x80 + (0x400 + b.toNat) % 0x80) (by omega))

/-- **A name has the bytes that it shows.** -/
theorem hostBytes_ofHostBytes (skip : Nat) (bytes : List UInt8) :
    (ofHostBytes skip bytes).hostBytes = bytes.drop skip := by
  fun_induction ofHostBytes skip bytes with
  | case1 => simp [hostBytes]
  | case2 skip b rest ih => exact ih
  | case3 a rest code extra hread ih =>
    obtain ⟨hbytes, hextra⟩ := hostBytes_of_readUtf8 hread
    rw [hostBytes, List.flatMap_cons, hbytes, ← hostBytes, ih, List.cons_append, List.take_append_drop, List.drop_zero]
  | case4 a rest fault hread ih =>
    have ha : 0x80 ≤ a.toNat := by
      refine Nat.le_of_not_lt fun hone => ?_
      rw [readUtf8_one hone] at hread
      cases hread
    rw [hostBytes, List.flatMap_cons, hostBytes_ofByte ha, ← hostBytes, ih]
    rfl

theorem hostBytes_listed (name : Text) : name.listed.hostBytes = name.hostBytes :=
  hostBytes_ofHostBytes 0 name.hostBytes

/-- A listed name is listed as it is. -/
theorem listed_listed (name : Text) : name.listed.listed = name.listed := by
  rw [listed, hostBytes_listed, listed]

theorem ofHostBytes_skip (skipped rest : List UInt8) :
    ofHostBytes skipped.length (skipped ++ rest) = ofHostBytes 0 rest := by
  induction skipped with
  | nil => rfl
  | cons b more ih => exact ih

/-- So is a name without surrogates. -/
theorem listed_of_scalar (h : name.Scalar) : name.listed = name := by
  unfold listed
  induction name with
  | nil => rfl
  | cons c rest ih =>
    cases c with
    | surrogate n => cases h _ List.mem_cons_self
    | scalar c =>
      obtain ⟨a, more, hbytes, hread⟩ := readUtf8_encodeChar c (hostBytes rest)
      have hcons : hostBytes (.scalar c :: rest) = a :: (more ++ hostBytes rest) := by
        rw [hostBytes, List.flatMap_cons, CodePoint.hostBytes, hbytes]
        rfl
      rw [hcons, ofHostBytes, hread]
      dsimp only
      rw [ofHostBytes_skip, ih (scalar_cons_iff.1 h)]
      exact congrArg (· :: rest) (CodePoint.ofNat_toNat (.scalar c))

/-- Surrogates that spell out a character are listed as this character. -/
example : listed [.surrogate 0x4C3, .surrogate 0x4A9] = (['é'] : Text) := by decide

theorem map_listed {names : List Text} (h : ∀ name ∈ names, name.listed = name) : names.map listed = names := by
  rw [List.map_congr_left (g := id) h, List.map_id]

/-! ## Characters of one byte -/

/-- Only a character within ASCII has a byte of ASCII, and it has no other. -/
theorem hostBytes_of_mem {c : CodePoint} {b : UInt8} (h : b ∈ c.hostBytes) (hb : b.toNat < 0x80) :
    c.toNat = b.toNat ∧ c.hostBytes = [b] := by
  cases c with
  | surrogate n =>
    have hhigh := le_toNat_of_eq (List.mem_singleton.1 h) (by omega)
    omega
  | scalar ch =>
    have hvalid := ch.valid
    simp only [UInt32.isValidChar, Nat.isValidChar] at hvalid
    have hcode : (CodePoint.scalar ch).toNat = ch.val.toNat := rfl
    rw [hcode]
    unfold CodePoint.hostBytes String.utf8EncodeChar at h ⊢
    dsimp only at h ⊢
    generalize ch.val.toNat = v at hvalid h ⊢
    split at h
    · rename_i hone
      rw [if_pos hone]
      have hbyte := List.mem_singleton.1 h
      have hcode : b.toNat = v := by rw [hbyte, toNat_byte (by omega)]
      exact ⟨hcode.symm, by rw [hbyte]⟩
    · -- every byte of a longer form has its first bit
      exfalso
      split at h
      · simp only [List.mem_cons, List.not_mem_nil, or_false] at h
        rcases h with h | h <;> have hhigh := le_toNat_of_eq h (by omega) <;> omega
      · split at h
        · simp only [List.mem_cons, List.not_mem_nil, or_false] at h
          rcases h with h | h | h <;> have hhigh := le_toNat_of_eq h (by omega) <;> omega
        · simp only [List.mem_cons, List.not_mem_nil, or_false] at h
          rcases h with h | h | h | h <;> have hhigh := le_toNat_of_eq h (by omega) <;> omega

theorem hostBytes_ascii {c : CodePoint} (h : c.toNat < 0x80) : c.hostBytes = [UInt8.ofNat c.toNat] := by
  cases c with
  | surrogate n =>
    have hcode : (CodePoint.surrogate n).toNat = 0xD800 + n := rfl
    omega
  | scalar ch =>
    have hcode : (CodePoint.scalar ch).toNat = ch.val.toNat := rfl
    rw [hcode] at h ⊢
    exact utf8EncodeChar_one (toNat_byte (by omega)).symm (by rw [toNat_byte (by omega)]; exact h)

theorem mem_of_mem_listed {c : CodePoint} (hc : c.toNat < 0x80) (h : c ∈ name.listed) : c ∈ name := by
  have hbyte : (UInt8.ofNat c.toNat).toNat = c.toNat := toNat_byte (by omega)
  have hmem : UInt8.ofNat c.toNat ∈ name.listed.hostBytes :=
    List.mem_flatMap.2 ⟨c, h, by rw [hostBytes_ascii hc]; exact List.mem_singleton_self _⟩
  rw [hostBytes_listed] at hmem
  obtain ⟨other, hother, hbytes⟩ := List.mem_flatMap.1 hmem
  obtain ⟨heq, -⟩ := hostBytes_of_mem hbytes (by omega)
  rw [hbyte] at heq
  rwa [← CodePoint.toNat_inj.1 heq]

theorem hostBytes_ne_nil (c : CodePoint) : c.hostBytes ≠ [] := by
  cases c with
  | surrogate n => exact List.cons_ne_nil _ _
  | scalar ch =>
    unfold CodePoint.hostBytes String.utf8EncodeChar
    dsimp only
    split
    · exact List.cons_ne_nil _ _
    · split
      · exact List.cons_ne_nil _ _
      · split <;> exact List.cons_ne_nil _ _

/-- No other name is listed as a text within ASCII. -/
theorem eq_of_listed {text : Text} (htext : ∀ c ∈ text, c.toNat < 0x80) (h : name.listed = text) : name = text := by
  have hscalar : name.Scalar := by
    intro c hc
    obtain ⟨b, hb⟩ := List.exists_mem_of_ne_nil _ (hostBytes_ne_nil c)
    have hmem : b ∈ text.hostBytes := by
      rw [← h, hostBytes_listed]
      exact List.mem_flatMap.2 ⟨c, hc, hb⟩
    obtain ⟨other, hother, hbyte⟩ := List.mem_flatMap.1 hmem
    have hascii := htext other hother
    rw [hostBytes_ascii hascii, List.mem_singleton] at hbyte
    rw [hbyte] at hb
    have hlow : (UInt8.ofNat other.toNat).toNat < 0x80 := by
      rw [toNat_byte (by omega)]
      exact hascii
    have hcode := (hostBytes_of_mem hb hlow).1
    cases c with
    | scalar ch => rfl
    | surrogate n =>
      have hhigh : (CodePoint.surrogate n).toNat = 0xD800 + n := rfl
      omega
  rw [← h, listed_of_scalar hscalar]

end Text

end Linework
