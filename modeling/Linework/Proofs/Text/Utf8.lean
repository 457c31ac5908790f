import Linework.Text.Encoding

/-!
# UTF-8

What is written in UTF-8 is read again as it was (`Encoding.decodeUtf8_encode`). A character is read
from the bytes it is written in, whatever comes after them, and the bytes tell what has been read
(`Encoding.ReadsAs`).
-/

namespace Linework

namespace Encoding

theorem toNat_byte {n : Nat} (h : n < 256) : (UInt8.ofNat n).toNat = n := by
  rw [UInt8.toNat_ofNat']
  omega

theorem le_toNat_of_eq {b : UInt8} {n : Nat} (h : b = UInt8.ofNat n) (hn : 0x80 ≤ n ∧ n < 256) : 0x80 ≤ b.toNat := by
  rw [h, toNat_byte hn.2]
  exact hn.1

theorem isContinuation_iff {b : UInt8} : isContinuation b = true ↔ 0x80 ≤ b.toNat ∧ b.toNat < 0xC0 := by
  simp [isContinuation, UInt8.lt_iff_toNat_lt, UInt8.le_iff_toNat_le]

theorem mayFollow_iff {a b : UInt8} :
    mayFollow a b = true ↔ (0x80 ≤ b.toNat ∧ b.toNat < 0xC0) ∧ (a.toNat = 0xE0 → 0xA0 ≤ b.toNat) ∧
      (a.toNat = 0xED → b.toNat < 0xA0) ∧ (a.toNat = 0xF0 → 0x90 ≤ b.toNat) ∧
      (a.toNat = 0xF4 → b.toNat < 0x90) := by
  have hne : ∀ k : UInt8, (a != k) = true ↔ a.toNat ≠ k.toNat := by
    intro k
    rw [bne_iff_ne, Ne, ← UInt8.toNat_inj]
  simp only [mayFollow, Bool.and_eq_true, Bool.or_eq_true, isContinuation_iff, hne,
    decide_eq_true_eq, UInt8.lt_iff_toNat_lt, UInt8.le_iff_toNat_le, UInt8.reduceToNat]
  omega

section Lead

variable {a b c d : UInt8} {rest : List UInt8} {x y z w : Nat}

theorem shifted_eq {code : Nat} (hb : b.toNat = y + 0x80) : shifted code b = code * 64 + y := by
  unfold shifted
  omega

theorem readUtf8_one (ha : a.toNat < 0x80) : readUtf8 a rest = .ok (a.toNat, 0) := by
  unfold readUtf8
  exact if_pos (UInt8.lt_iff_toNat_lt.2 ha)

/-- After a lead byte, what is read depends on the bytes behind it. -/
theorem readUtf8_lead (hlow : 0xC2 ≤ a.toNat) (hhigh : a.toNat < 0xF5) (hb : mayFollow a b = true) :
    readUtf8 a (b :: rest) =
      if a < 0xE0 then .ok (shifted (a.toNat - 0xC0) b, 1)
      else match rest with
        | [] => .error (none, .unexpectedEnd)
        | c :: more =>
          if !isContinuation c then .error (some 2, .invalidContinuation)
          else if a < 0xF0 then .ok (shifted (shifted (a.toNat - 0xE0) b) c, 2)
          else match more with
            | [] => .error (none, .unexpectedEnd)
            | d :: _ =>
              if !isContinuation d then .error (some 3, .invalidContinuation)
              else .ok (shifted (shifted (shifted (a.toNat - 0xF0) b) c) d, 3) := by
  have hfirst : ¬ a < 0x80 := by
    simp only [UInt8.lt_iff_toNat_lt, UInt8.reduceToNat]
    omega
  have hsecond : ¬ (decide (a < 0xC2) || decide (0xF5 ≤ a)) = true := by
    simp only [Bool.or_eq_true, decide_eq_true_eq, UInt8.lt_iff_toNat_lt, UInt8.le_iff_toNat_le,
      UInt8.reduceToNat]
    omega
  rw [readUtf8.eq_def, if_neg hfirst, if_neg hsecond]
  dsimp only
  rw [hb]
  rfl

theorem readUtf8_two (ha : a.toNat = x + 0xC0) (hx : 2 ≤ x ∧ x < 0x20) (hb : b.toNat = y + 0x80)
    (hy : y < 0x40) : readUtf8 a (b :: rest) = .ok (x * 64 + y, 1) := by
  have hlead : a < 0xE0 := by
    simp only [UInt8.lt_iff_toNat_lt, UInt8.reduceToNat]
    omega
  have hbits : a.toNat - 0xC0 = x := by omega
  rw [readUtf8_lead (by omega) (by omega) (by rw [mayFollow_iff]; omega), if_pos hlead, shifted_eq hb, hbits]

theorem readUtf8_three (ha : a.toNat = x + 0xE0) (hx : x < 0x10) (hb : b.toNat = y + 0x80)
    (hy : y < 0x40 ∧ (x = 0 → 0x20 ≤ y) ∧ (x = 13 → y < 0x20)) (hc : c.toNat = z + 0x80) (hz : z < 0x40) :
    readUtf8 a (b :: c :: rest) = .ok ((x * 64 + y) * 64 + z, 2) := by
  have hlow : ¬ a < 0xE0 := by
    simp only [UInt8.lt_iff_toNat_lt, UInt8.reduceToNat]
    omega
  have hlead : a < 0xF0 := by
    simp only [UInt8.lt_iff_toNat_lt, UInt8.reduceToNat]
    omega
  have hthird : isContinuation c = true := isContinuation_iff.2 (by omega)
  have hbits : a.toNat - 0xE0 = x := by omega
  rw [readUtf8_lead (by omega) (by omega) (by rw [mayFollow_iff]; omega), if_neg hlow]
  dsimp only
  rw [hthird, if_neg (by simp), if_pos hlead, shifted_eq hc, shifted_eq hb, hbits]

theorem readUtf8_four (ha : a.toNat = x + 0xF0) (hx : x < 5) (hb : b.toNat = y + 0x80)
    (hy : y < 0x40 ∧ (x = 0 → 0x10 ≤ y) ∧ (x = 4 → y < 0x10)) (hc : c.toNat = z + 0x80) (hz : z < 0x40)
    (hd : d.toNat = w + 0x80) (hw : w < 0x40) :
    readUtf8 a (b :: c :: d :: rest) = .ok (((x * 64 + y) * 64 + z) * 64 + w, 3) := by
  have hlow : ¬ a < 0xE0 := by
    simp only [UInt8.lt_iff_toNat_lt, UInt8.reduceToNat]
    omega
  have hmiddle : ¬ a < 0xF0 := by
    simp only [UInt8.lt_iff_toNat_lt, UInt8.reduceToNat]
    omega
  have hthird : isContinuation c = true := isContinuation_iff.2 (by omega)
  have hfourth : isContinuation d = true := isContinuation_iff.2 (by omega)
  have hbits : a.toNat - 0xF0 = x := by omega
  rw [readUtf8_lead (by omega) (by omega) (by rw [mayFollow_iff]; omega), if_neg hlow]
  simp only [hthird, hfourth, Bool.not_true, Bool.false_eq_true, if_false, if_neg hmiddle]
  rw [shifted_eq hd, shifted_eq hc, shifted_eq hb, hbits]

end Lead

/-- How a character is read: from one byte up to four, with the bits of each. -/
inductive ReadsAs : UInt8 → List UInt8 → Nat → Nat → Prop
  | one {a : UInt8} {rest : List UInt8} (ha : a.toNat < 0x80) : ReadsAs a rest a.toNat 0
  | two {a b : UInt8} {rest : List UInt8} {x y : Nat} (ha : a.toNat = x + 0xC0) (hx : 2 ≤ x ∧ x < 0x20)
      (hb : b.toNat = y + 0x80) (hy : y < 0x40) : ReadsAs a (b :: rest) (x * 64 + y) 1
  | three {a b c : UInt8} {rest : List UInt8} {x y z : Nat} (ha : a.toNat = x + 0xE0) (hx : x < 0x10)
      (hb : b.toNat = y + 0x80) (hy : y < 0x40 ∧ (x = 0 → 0x20 ≤ y) ∧ (x = 13 → y < 0x20))
      (hc : c.toNat = z + 0x80) (hz : z < 0x40) : ReadsAs a (b :: c :: rest) ((x * 64 + y) * 64 + z) 2
  | four {a b c d : UInt8} {rest : List UInt8} {x y z w : Nat} (ha : a.toNat = x + 0xF0) (hx : x < 5)
      (hb : b.toNat = y + 0x80) (hy : y < 0x40 ∧ (x = 0 → 0x10 ≤ y) ∧ (x = 4 → y < 0x10))
      (hc : c.toNat = z + 0x80) (hz : z < 0x40) (hd : d.toNat = w + 0x80) (hw : w < 0x40) :
      ReadsAs a (b :: c :: d :: rest) (((x * 64 + y) * 64 + z) * 64 + w) 3

theorem readsAs_of_readUtf8 {a : UInt8} {rest : List UInt8} {code extra : Nat}
    (h : readUtf8 a rest = .ok (code, extra)) : ReadsAs a rest code extra := by
  by_cases hone : a.toNat < 0x80
  · rw [readUtf8_one hone] at h
    cases h
    exact .one hone
  have hfirst : ¬ a < 0x80 := mt UInt8.lt_iff_toNat_lt.1 hone
  by_cases hrange : (decide (a < 0xC2) || decide (0xF5 ≤ a)) = true
  · rw [readUtf8.eq_def, if_neg hfirst, if_pos hrange] at h
    cases h
  have hbounds : 0xC2 ≤ a.toNat ∧ a.toNat < 0xF5 := by
    simp only [Bool.or_eq_true, decide_eq_true_eq, UInt8.lt_iff_toNat_lt, UInt8.le_iff_toNat_le,
      UInt8.reduceToNat] at hrange
    omega
  obtain ⟨b, more, rfl⟩ : ∃ b more, rest = b :: more := by
    refine List.exists_cons_of_ne_nil fun hnil => ?_
    rw [hnil, readUtf8.eq_def, if_neg hfirst, if_neg hrange] at h
    cases h
  by_cases hfollow : mayFollow a b = true
  · have hb := mayFollow_iff.1 hfollow
    rw [readUtf8_lead hbounds.1 hbounds.2 hfollow] at h
    split at h
    · rename_i hlead
      have hlead : a.toNat < 0xE0 := UInt8.lt_iff_toNat_lt.1 hlead
      obtain ⟨rfl, rfl⟩ := Prod.mk.inj (Except.ok.inj h)
      exact .two (by omega) (by omega) (by omega) (by omega)
    rename_i hlead
    have hlead : ¬ a.toNat < 0xE0 := fun hlt => hlead (UInt8.lt_iff_toNat_lt.2 hlt)
    split at h
    · cases h
    rename_i c more
    split at h
    · cases h
    rename_i hthird
    have hc := isContinuation_iff.1 (by simpa using hthird)
    split at h
    · rename_i hmiddle
      have hmiddle : a.toNat < 0xF0 := UInt8.lt_iff_toNat_lt.1 hmiddle
      obtain ⟨rfl, rfl⟩ := Prod.mk.inj (Except.ok.inj h)
      exact .three (by omega) (by omega) (by omega) (by omega) (by omega) (by omega)
    rename_i hmiddle
    have hmiddle : ¬ a.toNat < 0xF0 := fun hlt => hmiddle (UInt8.lt_iff_toNat_lt.2 hlt)
    split at h
    · cases h
    rename_i d more
    split at h
    · cases h
    rename_i hfourth
    have hd := isContinuation_iff.1 (by simpa using hfourth)
    obtain ⟨rfl, rfl⟩ := Prod.mk.inj (Except.ok.inj h)
    exact .four (by omega) (by omega) (by omega) (by omega) (by omega) (by omega) (by omega) (by omega)
  · rw [readUtf8.eq_def, if_neg hfirst, if_neg hrange] at h
    dsimp only at h
    rw [if_pos (by simpa using hfollow)] at h
    cases h

section Written

variable {a b c d : UInt8} {ch : Char} {x y z w : Nat}

theorem ofNat_eq_byte {n : Nat} (h : a.toNat = n) : UInt8.ofNat n = a := by
  rw [← h, UInt8.ofNat_toNat]

theorem utf8EncodeChar_one (hch : ch.val.toNat = a.toNat) (ha : a.toNat < 0x80) : String.utf8EncodeChar ch = [a] := by
  unfold String.utf8EncodeChar
  rw [hch]
  dsimp only
  rw [if_pos (by omega), UInt8.ofNat_toNat]

theorem utf8EncodeChar_two (hch : ch.val.toNat = x * 64 + y) (ha : a.toNat = x + 0xC0) (hx : 2 ≤ x ∧ x < 0x20)
    (hb : b.toNat = y + 0x80) (hy : y < 0x40) : String.utf8EncodeChar ch = [a, b] := by
  unfold String.utf8EncodeChar
  rw [hch]
  dsimp only
  rw [if_neg (by omega), if_pos (by omega), ofNat_eq_byte (a := a) (by omega), ofNat_eq_byte (a := b) (by omega)]

theorem utf8EncodeChar_three (hch : ch.val.toNat = (x * 64 + y) * 64 + z) (ha : a.toNat = x + 0xE0)
    (hx : x < 0x10) (hb : b.toNat = y + 0x80) (hy : y < 0x40 ∧ (x = 0 → 0x20 ≤ y)) (hc : c.toNat = z + 0x80)
    (hz : z < 0x40) : String.utf8EncodeChar ch = [a, b, c] := by
  unfold String.utf8EncodeChar
  rw [hch]
  dsimp only
  rw [if_neg (by omega), if_neg (by omega), if_pos (by omega), ofNat_eq_byte (a := a) (by omega),
    ofNat_eq_byte (a := b) (by omega), ofNat_eq_byte (a := c) (by omega)]

theorem utf8EncodeChar_four (hch : ch.val.toNat = ((x * 64 + y) * 64 + z) * 64 + w) (ha : a.toNat = x + 0xF0)
    (hx : x < 5) (hb : b.toNat = y + 0x80) (hy : y < 0x40 ∧ (x = 0 → 0x10 ≤ y)) (hc : c.toNat = z + 0x80)
    (hz : z < 0x40) (hd : d.toNat = w + 0x80) (hw : w < 0x40) : String.utf8EncodeChar ch = [a, b, c, d] := by
  unfold String.utf8EncodeChar
  rw [hch]
  dsimp only
  rw [if_neg (by omega), if_neg (by omega), if_neg (by omega), ofNat_eq_byte (a := a) (by omega),
    ofNat_eq_byte (a := b) (by omega), ofNat_eq_byte (a := c) (by omega), ofNat_eq_byte (a := d) (by omega)]

end Written

/-- A character is read from the bytes it is written in. -/
theorem readUtf8_encodeChar (ch : Char) (rest : List UInt8) :
    ∃ a more, String.utf8EncodeChar ch = a :: more ∧ readUtf8 a (more ++ rest) = .ok (ch.toNat, more.length) := by
  have hvalid := ch.valid
  simp only [UInt32.isValidChar, Nat.isValidChar] at hvalid
  have hv : ch.toNat = ch.val.toNat := rfl
  rw [hv]
  unfold String.utf8EncodeChar
  generalize ch.val.toNat = v at hvalid
  dsimp only
  split
  · refine ⟨_, _, rfl, ?_⟩
    have ha : (UInt8.ofNat v).toNat = v := toNat_byte (by omega)
    rw [readUtf8_one (by omega), ha]
    rfl
  · split
    · refine ⟨_, _, rfl, (readUtf8_two (toNat_byte (by omega)) (by omega) (toNat_byte (by omega)) (by omega)).trans ?_⟩
      congr 2
      omega
    · split
      · refine ⟨_, _, rfl, (readUtf8_three (toNat_byte (by omega)) (by omega) (toNat_byte (by omega)) (by omega)
          (toNat_byte (by omega)) (by omega)).trans ?_⟩
        congr 2
        omega
      · refine ⟨_, _, rfl, (readUtf8_four (toNat_byte (by omega)) (by omega) (toNat_byte (by omega)) (by omega)
          (toNat_byte (by omega)) (by omega) (toNat_byte (by omega)) (by omega)).trans ?_⟩
        congr 2
        omega

theorem decodeUtf8_skip (skipped rest : List UInt8) (pos : Nat) :
    decodeUtf8 skipped.length pos (skipped ++ rest) = decodeUtf8 0 (pos + skipped.length) rest := by
  induction skipped generalizing pos with
  | nil => rfl
  | cons b more ih =>
    rw [List.length_cons, List.cons_append, decodeUtf8, ih]
    congr 1
    omega

/-- **What is written in UTF-8 is read again.** -/
theorem decodeUtf8_encodeUtf8 {t : Text} {bytes : List UInt8} {first pos : Nat} (h : encodeUtf8 first t = .ok bytes) :
    decodeUtf8 0 pos bytes = .ok t := by
  fun_induction encodeUtf8 first t generalizing pos bytes with
  | case1 =>
    cases h
    rfl
  | case2 first ch rest ih =>
    cases htail : encodeUtf8 (first + 1) rest with
    | error fault =>
      rw [htail] at h
      cases h
    | ok tail =>
    rw [htail] at h
    cases h
    obtain ⟨a, more, hbytes, hread⟩ := readUtf8_encodeChar ch tail
    rw [hbytes]
    dsimp only
    rw [List.cons_append, decodeUtf8, hread]
    dsimp only
    rw [decodeUtf8_skip, ih htail, Except.map]
    exact congrArg (fun c => Except.ok (c :: rest)) (CodePoint.ofNat_toNat ch)
  | case3 => cases h

end Encoding

end Linework
