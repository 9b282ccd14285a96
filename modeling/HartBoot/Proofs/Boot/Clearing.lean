import HartBoot.Proofs.Boot.Parts

/-!
The memory that a boot clears. The clearing loop stores at every word of a region in ascending order and then stops
with an overflow if there is no address after the last one (`clearFrom_eq`). A region in which neither its start nor the
last address makes trouble is `Clearable`, and there the prologue is the list `Layout.setup` of steps (`prologue_eq`).
-/
namespace HartBoot
namespace BssRegion
variable (r : BssRegion)

/-- The number of words that clearing stores. -/
def count : Nat := (r.stop.toNat - r.start.toNat + (Platform.clearStep - 1)) / Platform.clearStep

/-- The words that clearing stores, from the start on as long as they are below the end. -/
def words : List Word := (List.range' r.start.toNat r.count Platform.clearStep).map (BitVec.ofNat 64)

/-- Whether a region can be cleared: it is empty, or it starts at a word and ends before the last one. -/
def Clearable : Prop :=
  r.stop ≤ r.start ∨ Aligned Platform.clearStep r.start ∧ r.stop.toNat + Platform.clearStep ≤ addressCount

theorem count_below (below : r.start < r.stop) :
    r.start.toNat + (r.count - 1) * Platform.clearStep < r.stop.toNat ∧
      r.stop.toNat ≤ r.start.toNat + r.count * Platform.clearStep ∧ 0 < r.count := by
  have inside : r.start.toNat < r.stop.toNat := below
  simp only [count, Platform.clearStep]
  omega

theorem count_empty (empty : r.stop ≤ r.start) : r.count = 0 := by
  have none : r.stop.toNat ≤ r.start.toNat := empty
  simp only [count, Platform.clearStep]
  omega

theorem words_empty (empty : r.stop ≤ r.start) : r.words = [] := by
  rw [words, count_empty r empty]
  rfl

variable {r}

section
variable {addr stop next : Word} (below : addr < stop) (later : next.toNat = addr.toNat + Platform.clearStep)
include below later

theorem count_succ : count ⟨addr, stop⟩ = count ⟨next, stop⟩ + 1 := by
  have inside : addr.toNat < stop.toNat := below
  simp only [count, later, Platform.clearStep]
  omega

theorem words_cons : words ⟨addr, stop⟩ = addr :: words ⟨next, stop⟩ := by
  rw [words, words, count_succ below later, List.range'_succ, List.map_cons, BitVec.ofNat_toNat, BitVec.setWidth_eq,
    later]

/-- Clearing goes on from the next word to the same end. -/
theorem end_succ : addr.toNat + count ⟨addr, stop⟩ * Platform.clearStep =
    next.toNat + count ⟨next, stop⟩ * Platform.clearStep := by
  rw [count_succ below later, later, Nat.succ_mul]
  omega

theorem less_left : stop.toNat - next.toNat < stop.toNat - addr.toNat := by
  have inside : addr.toNat < stop.toNat := below
  simp only [Platform.clearStep] at later
  omega

end

/-- The last word of all is the only one of its region. -/
theorem count_single {addr stop : Word} (below : addr < stop)
    (past : addressCount ≤ addr.toNat + Platform.clearStep) : count ⟨addr, stop⟩ = 1 := by
  obtain ⟨last, _, some⟩ := count_below ⟨addr, stop⟩ below
  have small := stop.isLt
  simp only [Platform.clearStep, addressCount] at last past some
  omega

/-- The words are those whose distance from the start is a multiple of their size and that are below the end. -/
theorem mem_words {a : Word} :
    a ∈ r.words ↔ r.start ≤ a ∧ a < r.stop ∧ (a.toNat - r.start.toNat) % Platform.clearStep = 0 := by
  have small := r.stop.isLt
  simp only [words, List.mem_map, List.mem_range', BitVec.le_def, BitVec.lt_def]
  constructor
  · rintro ⟨n, ⟨i, before, rfl⟩, rfl⟩
    simp only [count, Platform.clearStep] at before ⊢
    rw [BitVec.toNat_ofNat, Nat.mod_eq_of_lt (by omega)]
    omega
  · rintro ⟨least, below, whole⟩
    refine ⟨a.toNat, ⟨(a.toNat - r.start.toNat) / Platform.clearStep, ?_, ?_⟩, by simp⟩
    · simp only [count, Platform.clearStep] at whole ⊢
      omega
    · simp only [Platform.clearStep] at whole ⊢
      omega

theorem words_ascending : r.words.Pairwise (· < ·) := by
  have small := r.stop.isLt
  rw [words, List.pairwise_map]
  refine (List.pairwise_lt_range' Platform.clearStep (by decide)).imp_of_mem ?_
  intro n m first second below
  obtain ⟨i, before, rfl⟩ := List.mem_range'.mp first
  obtain ⟨j, after, rfl⟩ := List.mem_range'.mp second
  simp only [count, Platform.clearStep] at before after below ⊢
  rw [BitVec.lt_def, BitVec.toNat_ofNat, BitVec.toNat_ofNat, Nat.mod_eq_of_lt (by omega), Nat.mod_eq_of_lt (by omega)]
  exact below

theorem aligned_words (aligned : Aligned Platform.clearStep r.start) {a : Word} (member : a ∈ r.words) :
    Aligned Platform.clearStep a := by
  obtain ⟨least, below, whole⟩ := mem_words.mp member
  have after : r.start.toNat ≤ a.toNat := least
  simp only [Aligned, Platform.clearStep] at aligned whole ⊢
  omega

theorem clearable_words (clearable : r.Clearable) {a : Word} (member : a ∈ r.words) :
    Aligned Platform.clearStep a := by
  rcases clearable with empty | ⟨aligned, _⟩
  · rw [words_empty r empty] at member
    exact absurd member List.not_mem_nil
  · exact aligned_words aligned member

theorem clearable_room (clearable : r.Clearable) : r.start.toNat + r.count * Platform.clearStep < addressCount := by
  rcases clearable with empty | ⟨aligned, room⟩
  · rw [count_empty r empty, Nat.zero_mul]
    exact r.start.isLt
  · have small := r.start.isLt
    simp only [count, Aligned, Platform.clearStep, addressCount] at aligned room ⊢
    omega

/-! ### Clearing up to the end of the address space -/

/-- The last word of all. -/
def lastWord : Word := BitVec.ofNat 64 (addressCount - Platform.clearStep)

theorem le_lastWord {stop : Word} : stop ≤ lastWord ↔ stop.toNat + Platform.clearStep ≤ addressCount := by
  have small := stop.isLt
  simp only [lastWord, BitVec.le_def, BitVec.toNat_ofNat, addressCount, Platform.clearStep]
  omega

section
variable (below : r.start < r.stop) (aligned : Aligned Platform.clearStep r.start)
include below aligned

/-- A region that ends behind the last word goes up to it. -/
theorem words_past (past : lastWord < r.stop) : ∃ before, r.words = before ++ [lastWord] := by
  obtain ⟨last, _, some⟩ := count_below r below
  have small := r.stop.isLt
  have behind : ¬ r.stop.toNat + Platform.clearStep ≤ addressCount := fun room =>
    BitVec.not_lt.mpr (le_lastWord.mpr room) past
  have top : r.start.toNat + Platform.clearStep * (r.count - 1) = addressCount - Platform.clearStep := by
    simp only [count, Aligned, Platform.clearStep, addressCount] at last aligned behind some ⊢
    omega
  have split : r.count = r.count - 1 + 1 := by omega
  refine ⟨(List.range' r.start.toNat (r.count - 1) Platform.clearStep).map (BitVec.ofNat 64), ?_⟩
  rw [words, split, List.range'_concat, List.map_append, top]
  rfl

theorem past_overflows (past : lastWord < r.stop) :
    addressCount ≤ r.start.toNat + r.count * Platform.clearStep := by
  obtain ⟨_, reached, _⟩ := count_below r below
  have behind : ¬ r.stop.toNat + Platform.clearStep ≤ addressCount := fun room =>
    BitVec.not_lt.mpr (le_lastWord.mpr room) past
  simp only [Aligned, Platform.clearStep, addressCount] at aligned behind reached ⊢
  omega

end

/-! ### Checked regions -/

/-- Whether the byte at `addr` is one of the word at `word`. -/
def InWord (word addr : Word) : Prop := word.toNat ≤ addr.toNat ∧ addr.toNat < word.toNat + Platform.clearStep

theorem check_eq_ok {start stop : Word} : check start stop = .ok r ↔
    (Aligned Platform.clearStep start ∧ Aligned Platform.clearStep stop ∧ start ≤ stop) ∧ r = ⟨start, stop⟩ := by
  unfold check
  by_cases first : Aligned Platform.clearStep start
  · by_cases last : Aligned Platform.clearStep stop
    · by_cases inverted : stop < start
      · have disordered : ¬ start ≤ stop := BitVec.not_le.mpr inverted
        simp [first, last, inverted, disordered]
      · have ordered : start ≤ stop := BitVec.not_lt.mp inverted
        simp [first, last, inverted, ordered, eq_comm]
    · simp [first, last]
  · simp [first]

/-- A region that starts and ends at a word can be cleared, also if it ends before it starts. -/
theorem aligned_clearable (first : Aligned Platform.clearStep r.start) (last : Aligned Platform.clearStep r.stop) :
    r.Clearable := by
  have small := r.stop.isLt
  refine .inr ⟨first, ?_⟩
  simp only [Aligned, Platform.clearStep, addressCount] at last ⊢
  omega

section
variable (checked : check r.start r.stop = .ok r)
include checked

theorem checked_clearable : r.Clearable := by
  obtain ⟨⟨first, last, _⟩, _⟩ := check_eq_ok.mp checked
  exact aligned_clearable first last

theorem checked_size : r.words.length * Platform.clearStep = r.size.toNat := by
  obtain ⟨⟨first, last, ordered⟩, _⟩ := check_eq_ok.mp checked
  have inside : r.start.toNat ≤ r.stop.toNat := ordered
  rw [words, List.length_map, List.length_range', size]
  by_cases empty : r.stop ≤ r.start
  · rw [if_pos empty, count_empty r empty]
    rfl
  · rw [if_neg empty, BitVec.toNat_sub_of_le ordered]
    simp only [count, Aligned, Platform.clearStep] at first last ⊢
    omega

/-- The words of a checked region are made of its bytes and of no others. -/
theorem checked_bytes (byte : Word) : r.contains byte = true ↔ ∃ word ∈ r.words, InWord word byte := by
  obtain ⟨⟨first, last, _⟩, _⟩ := check_eq_ok.mp checked
  have small := byte.isLt
  have bounded := r.stop.isLt
  simp only [contains, InWord, Bool.and_eq_true, decide_eq_true_eq, mem_words, BitVec.le_def, BitVec.lt_def,
    Aligned, Platform.clearStep] at first last ⊢
  constructor
  · rintro ⟨least, below⟩
    refine ⟨BitVec.ofNat 64 (byte.toNat - byte.toNat % 8), ?_, ?_⟩
    · rw [BitVec.toNat_ofNat, Nat.mod_eq_of_lt (by omega)]
      omega
    · rw [BitVec.toNat_ofNat, Nat.mod_eq_of_lt (by omega)]
      omega
  · rintro ⟨word, ⟨least, below, whole⟩, low, high⟩
    omega

end

end BssRegion

/-- The steps that set a hart up, in order. -/
def Layout.setup (l : Layout) : List Setup :=
  [.bareAddressing, .globalPointer l.globalPointer] ++ l.bss.words.map .zeroWord ++ [.stackPointer l.stackEnd]

namespace Boot
variable {ε σ Halt : Type} (ops : ResetOps ε σ Halt)

/-- The clearing loop stores at every word, and overflows if the address after the last one does not exist. -/
theorem clearFrom_eq (addr stop : Word) :
    clearFrom ops addr stop = (do
      (BssRegion.mk addr stop).words.forM fun a => ops.setup (.zeroWord a)
      if addressCount ≤ addr.toNat + (BssRegion.mk addr stop).count * Platform.clearStep then
        throw (ops.fault .addressOverflow)) := by
  rw [clearFrom]
  by_cases below : addr < stop
  · rw [dif_pos below]
    cases stepped : Word.add? addr Platform.clearStep with
    | none =>
      have past := Word.add?_eq_none_iff.mp stepped
      rw [BssRegion.words, BssRegion.count_single below past, Nat.one_mul, if_pos past]
      simp
    | some next =>
      have later := Word.toNat_of_add? stepped
      have closer := BssRegion.less_left below later
      rw [BssRegion.words_cons below later, BssRegion.end_succ below later]
      change (ops.setup (.zeroWord addr) >>= fun _ => clearFrom ops next stop) =
        ((ops.setup (.zeroWord addr) >>= fun _ => List.forM _ _) >>= _)
      rw [clearFrom_eq next stop, bind_assoc]
  · have empty : stop ≤ addr := BitVec.not_lt.mp below
    have room : ¬ addressCount ≤ addr.toNat + (BssRegion.mk addr stop).count * Platform.clearStep := by
      rw [BssRegion.count_empty _ empty, Nat.zero_mul]
      exact Nat.not_le_of_lt addr.isLt
    rw [dif_neg below, BssRegion.words_empty _ empty, if_neg room]
    rfl
termination_by stop.toNat - addr.toNat

theorem clearBss_clearable {r : BssRegion} (clearable : r.Clearable) :
    clearBss ops r = r.words.forM fun a => ops.setup (.zeroWord a) := by
  rw [clearBss, clearFrom_eq, if_neg (Nat.not_le_of_lt (BssRegion.clearable_room clearable))]
  exact bind_pure_unit

/-- Where the memory can be cleared, the prologue is the list of its steps. -/
theorem prologue_eq {l : Layout} (clearable : l.bss.Clearable) : prologue ops l = l.setup.forM ops.setup := by
  rw [prologue, clearBss_clearable ops clearable, Layout.setup]
  simp [List.forM_eq_forM]

end Boot
end HartBoot
