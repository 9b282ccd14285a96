/-!
Machine words. A word is 64 bits wide and a byte eight; both are read bit by bit (`bit`, `field`,
`putField`), written in hexadecimal or decimal, and added with the carry out reported (`Word.add?`).
-/
namespace HartBoot

/-- A register, an address or a value in memory. -/
abbrev Word := BitVec 64

/-- An eight-bit register field. -/
abbrev Byte := BitVec 8

/-- The word with one bit set, at position `i`. -/
abbrev bit {w : Nat} (i : Nat) : BitVec w := BitVec.twoPow w i

/-- The `len` bits of `x` from position `start` on. -/
abbrev field {w : Nat} (start len : Nat) (x : BitVec w) : BitVec len := x.extractLsb' start len

/-- `x` with the bits from position `start` on replaced by those of `v`. -/
def putField {w len : Nat} (start : Nat) (v : BitVec len) (x : BitVec w) : BitVec w :=
  (x &&& ~~~((BitVec.allOnes len).setWidth w <<< start)) ||| (v.setWidth w <<< start)

/-- A replaced field holds the new bits, and the bits around it stay. -/
theorem getLsbD_putField {w len : Nat} (start : Nat) (v : BitVec len) (x : BitVec w) {i : Nat} (inside : i < w) :
    (putField start v x).getLsbD i =
      if start ≤ i ∧ i < start + len then v.getLsbD (i - start) else x.getLsbD i := by
  by_cases low : i < start
  · simp [putField, inside, low, show ¬ start ≤ i by omega]
  · by_cases high : i < start + len
    · simp [putField, inside, low, show start ≤ i by omega, high,
        show i - start < len by omega]
    · have none : v.getLsbD (i - start) = false := BitVec.getLsbD_of_ge _ _ (by omega)
      simp [putField, inside, low, high, none, show ¬ i - start < len by omega]

/-- The lower-case hexadecimal digits of a number, without leading zeros. -/
def hexDigits (n : Nat) : String := String.ofList (Nat.toDigits 16 n)

/-- A word or byte in hexadecimal, after `0x`. -/
def hex {w : Nat} (x : BitVec w) : String := "0x" ++ hexDigits x.toNat

def decimal {w : Nat} (x : BitVec w) : String := toString x.toNat

/-- Whether an address is a multiple of `n`. -/
abbrev Aligned (n : Nat) (addr : Word) : Prop := addr.toNat % n = 0

abbrev addressCount : Nat := 0x10000000000000000

/-- The address `n` bytes after `addr`, unless it lies past the last one. -/
def Word.add? (addr : Word) (n : Nat) : Option Word :=
  if addr.toNat + n < addressCount then some (BitVec.ofNat 64 (addr.toNat + n)) else none

theorem Word.add?_eq_none_iff {addr : Word} {n : Nat} : Word.add? addr n = none ↔ addressCount ≤ addr.toNat + n := by
  simp [Word.add?]

theorem Word.add?_eq_some_iff {addr next : Word} {n : Nat} :
    Word.add? addr n = some next ↔ addr.toNat + n < addressCount ∧ next = BitVec.ofNat 64 (addr.toNat + n) := by
  simp [Word.add?, eq_comm]

theorem Word.toNat_of_add? {addr next : Word} {n : Nat} (h : Word.add? addr n = some next) :
    next.toNat = addr.toNat + n := by
  unfold Word.add? at h
  split at h
  · cases h; rw [BitVec.toNat_ofNat, Nat.mod_eq_of_lt ‹_›]
  · cases h

end HartBoot
