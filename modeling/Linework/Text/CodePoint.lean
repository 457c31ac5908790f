/-!
# Code points

The characters of a text. A surrogate is a character of its own here, whether or not it stands
next to another, so a text need not have a form in UTF-8.
-/

namespace Linework

/-- A scalar value, or a surrogate by its distance from the first one. -/
inductive CodePoint where
  | scalar (c : Char)
  | surrogate (n : Fin 0x800)
  deriving Repr

instance : Coe Char CodePoint := ⟨.scalar⟩

namespace CodePoint

instance : Inhabited CodePoint := ⟨scalar default⟩

instance : DecidableEq CodePoint
  | scalar a, scalar b => decidable_of_iff (a = b) (by simp)
  | surrogate m, surrogate n => decidable_of_iff (m = n) (by simp)
  | scalar _, surrogate _ => .isFalse nofun
  | surrogate _, scalar _ => .isFalse nofun

def toNat : CodePoint → Nat
  | scalar c => c.toNat
  | surrogate n => 0xD800 + n

def ofNat (code : Nat) : CodePoint :=
  if h : 0xD800 ≤ code ∧ code < 0xE000 then surrogate ⟨code - 0xD800, by omega⟩ else scalar (Char.ofNat code)

theorem ofNat_toNat (c : CodePoint) : ofNat c.toNat = c := by
  cases c with
  | scalar c =>
    have hvalid := c.valid
    have hcode : c.toNat = c.val.toNat := rfl
    simp only [UInt32.isValidChar, Nat.isValidChar] at hvalid
    rw [ofNat, toNat, dif_neg (by omega), Char.ofNat_toNat]
  | surrogate n =>
    rw [ofNat, toNat, dif_pos (by omega)]
    simp

theorem toNat_inj {a b : CodePoint} : a.toNat = b.toNat ↔ a = b :=
  ⟨fun h => by rw [← ofNat_toNat a, h, ofNat_toNat], fun h => h ▸ rfl⟩

instance : LT CodePoint := ⟨fun a b => a.toNat < b.toNat⟩

instance : LE CodePoint := ⟨fun a b => a.toNat ≤ b.toNat⟩

instance (a b : CodePoint) : Decidable (a < b) := inferInstanceAs (Decidable (a.toNat < b.toNat))

instance (a b : CodePoint) : Decidable (a ≤ b) := inferInstanceAs (Decidable (a.toNat ≤ b.toNat))

instance : Std.IsLinearOrder CodePoint := by
  refine @Std.IsLinearOrder.of_le CodePoint _ ⟨?_⟩ ⟨?_⟩ ⟨?_⟩
  · exact fun a b hab hba => toNat_inj.1 (Nat.le_antisymm hab hba)
  · exact fun hab hbc => Nat.le_trans hab hbc
  · exact fun a b => Nat.le_total a.toNat b.toNat

instance : Std.LawfulOrderLT CodePoint := .of_le fun _ _ => Nat.lt_iff_le_and_not_ge

def isSurrogate : CodePoint → Bool
  | scalar _ => false
  | surrogate _ => true

/-- A surrogate that stands for a byte which is no part of a character. -/
def isEscaped (c : CodePoint) : Bool := 0xDC80 ≤ c.toNat && c.toNat ≤ 0xDCFF

/-- A digit, within ASCII. -/
def isDigit (c : CodePoint) : Bool := '0' ≤ c && c ≤ '9'

/-- A letter, within ASCII. -/
def isAlpha (c : CodePoint) : Bool := ('a' ≤ c && c ≤ 'z') || ('A' ≤ c && c ≤ 'Z')

/-- A letter or a digit, within ASCII. -/
def isAlphanum (c : CodePoint) : Bool := c.isAlpha || c.isDigit

/-- The small form of a capital letter, within ASCII. -/
def toLower : CodePoint → CodePoint
  | scalar c => scalar c.toLower
  | surrogate n => surrogate n

end CodePoint

end Linework
