import Linework.Text.Encoding

/-!
# Texts without surrogates

The texts that UTF-8 has bytes for.
-/

namespace Linework

namespace Text

/-- No surrogates. -/
def Scalar (t : Text) : Prop := ∀ c ∈ t, c.isSurrogate = false

instance (t : Text) : Decidable (Scalar t) := inferInstanceAs (Decidable (∀ c ∈ t, c.isSurrogate = false))

theorem scalar_nil : Scalar [] := nofun

theorem scalar_cons_iff {c : Char} {t : Text} : Scalar (.scalar c :: t) ↔ Scalar t :=
  List.forall_mem_cons.trans (and_iff_right rfl)

theorem Scalar.mono {s t : Text} (h : Scalar t) (hsub : s ⊆ t) : Scalar s := fun c hc => h c (hsub hc)

theorem scalar_append_iff {s t : Text} : Scalar (s ++ t) ↔ Scalar s ∧ Scalar t := List.forall_mem_append

theorem scalar_flatten_iff {texts : List Text} : Scalar texts.flatten ↔ ∀ t ∈ texts, Scalar t := by
  constructor
  · exact fun h t ht c hc => h c (List.mem_flatten_of_mem ht hc)
  · intro h c hc
    obtain ⟨t, ht, hc⟩ := List.mem_flatten.1 hc
    exact h t ht c hc

end Text

namespace Encoding

theorem exists_encodeUtf8_iff {t : Text} {pos : Nat} : (∃ bytes, encodeUtf8 pos t = .ok bytes) ↔ t.Scalar := by
  fun_induction encodeUtf8 pos t with
  | case1 => exact iff_of_true ⟨_, rfl⟩ Text.scalar_nil
  | case2 pos c rest ih =>
    rw [Text.scalar_cons_iff, ← ih]
    cases encodeUtf8 (pos + 1) rest with
    | ok bytes => exact iff_of_true ⟨_, rfl⟩ ⟨_, rfl⟩
    | error fault => exact iff_of_false (fun ⟨_, h⟩ => nomatch h) (fun ⟨_, h⟩ => nomatch h)
  | case3 pos n rest => exact iff_of_false (fun ⟨_, h⟩ => nomatch h) fun h => nomatch h _ List.mem_cons_self

/-- **UTF-8 refuses surrogates** and nothing else. -/
theorem exists_encode_utf8_iff {t : Text} : (∃ bytes, encode utf8 t = .ok bytes) ↔ t.Scalar := exists_encodeUtf8_iff

end Encoding

end Linework
