import HartBoot.Proofs.Boot.Clearing
import HartBoot.Proofs.Sim.Depth

/-!
Clearing memory on a simulated hart. What clearing does to the hart depends on the bounds of the region alone:
nothing, a fault at the first store, a zero in each of its words (`Cleared`), or the same with an overflow after the
last word of all (`clearing_ends`). A region that is checked is always cleared (`checked_region_cleared`), and its
words are made of just its bytes.
-/
namespace HartBoot.Sim

/-- A hart on which zeros are stored at `addrs`, one after the other. -/
def Hart.zeroed (h : Hart) (addrs : List Word) : Hart := addrs.foldl (fun h a => h.afterSetup (.zeroWord a)) h

/-- `after` is `h` with a zero stored at each of `addrs`, in that order, and nothing else changed. -/
structure Cleared (addrs : List Word) (h after : Hart) : Prop where
  stores : after.stores = h.stores ++ addrs.map fun a => (a, 0)
  memory : ∀ a, after.memory.read a = if a ∈ addrs then some 0 else h.memory.read a
  registers : after.registers = h.registers
  routines : after.routines = h.routines
  wfiBudget : after.wfiBudget = h.wfiBudget
  history : after.history = h.history ++ addrs.flatMap fun a => Hart.trail h.registers.hartId (.setup (.zeroWord a))

section
variable {h after : Hart} {addrs : List Word}

theorem Cleared.refl (h : Hart) : Cleared [] h h := ⟨by simp, by simp, rfl, rfl, rfl, by simp⟩

/-- A store before other stores. -/
theorem Cleared.cons {a : Word} (later : Cleared addrs (h.afterSetup (.zeroWord a)) after) :
    Cleared (a :: addrs) h after where
  stores := by
    have first : (h.afterSetup (.zeroWord a)).stores = h.stores ++ [(a, 0)] := by
      rw [Hart.stores, Hart.events_afterSetup, List.filterMap_append]
      rfl
    rw [later.stores, first, List.append_assoc]
    rfl
  memory := by
    intro b
    have first : (h.afterSetup (.zeroWord a)).memory = h.memory.store a 0 := rfl
    rw [later.memory, first, Memory.read_store]
    by_cases here : a = b
    · simp [here]
    · simp [here, Ne.symm here]
  registers := later.registers
  routines := later.routines
  wfiBudget := later.wfiBudget
  history := by
    have same : (h.afterSetup (.zeroWord a)).registers.hartId = h.registers.hartId := rfl
    rw [later.history, Hart.history_afterSetup, same, List.append_assoc]
    rfl

theorem zeroed_cleared (addrs : List Word) (h : Hart) : Cleared addrs h (h.zeroed addrs) := by
  induction addrs generalizing h with
  | nil => exact .refl h
  | cons a addrs ih => exact (ih (h.afterSetup (.zeroWord a))).cons

theorem zeroWords_run (run : Word → HartM Exit) (aligned : ∀ a ∈ addrs, Aligned Platform.clearStep a) (h : Hart) :
    (addrs.forM fun a => (opsWith run).setup (.zeroWord a)) h = .ok () (h.zeroed addrs) := by
  refine (forM_of_ok (fun _ => True) trivial fun a member h _ => ⟨?_, trivial⟩).1
  have fits : Setup.Fits (.zeroWord a) := aligned a member
  exact setup_fits h fits

end

/-- How the clearing of a region on `h` ends. -/
inductive ClearingEnds (r : BssRegion) (h : Hart) : EStateM.Result Fault Hart Unit → Prop
  | nothing (empty : r.stop ≤ r.start) : ClearingEnds r h (.ok () h)
  /-- The first store is refused. -/
  | refused (below : r.start < r.stop) (misaligned : ¬ Aligned Platform.clearStep r.start) :
      ClearingEnds r h (.error (.misalignedStore h.registers.hartId r.start) h)
  | done {after : Hart} (below : r.start < r.stop) (aligned : Aligned Platform.clearStep r.start)
      (room : r.stop ≤ BssRegion.lastWord) (cleared : Cleared r.words h after) : ClearingEnds r h (.ok () after)
  /-- The last word of all is stored, and there is no address after it. -/
  | overflowed {after : Hart} {before : List Word} (below : r.start < r.stop)
      (aligned : Aligned Platform.clearStep r.start) (past : BssRegion.lastWord < r.stop)
      (last : r.words = before ++ [BssRegion.lastWord]) (cleared : Cleared r.words h after) :
      ClearingEnds r h (.error .addressOverflow after)

section
variable (run : Word → HartM Exit) {r : BssRegion} (h : Hart)

theorem clearBss_misaligned (below : r.start < r.stop) (misaligned : ¬ Aligned Platform.clearStep r.start) :
    Boot.clearBss (opsWith run) r h = .error (.misalignedStore h.registers.hartId r.start) h := by
  rw [Boot.clearBss, Boot.clearFrom, dif_pos below]
  exact bind_of_error (setup_misaligned h misaligned)

theorem clearBss_clearable_run (clearable : r.Clearable) :
    Boot.clearBss (opsWith run) r h = .ok () (h.zeroed r.words) := by
  rw [Boot.clearBss_clearable (opsWith run) clearable]
  exact zeroWords_run run (fun _ member => BssRegion.clearable_words clearable member) h

theorem clearBss_overflow (below : r.start < r.stop) (aligned : Aligned Platform.clearStep r.start)
    (past : BssRegion.lastWord < r.stop) :
    Boot.clearBss (opsWith run) r h = .error .addressOverflow (h.zeroed r.words) := by
  have stored := zeroWords_run run (fun _ member => BssRegion.aligned_words aligned member) h
  rw [Boot.clearBss, Boot.clearFrom_eq, if_pos (BssRegion.past_overflows below aligned past), bind_of_ok stored]
  rfl

theorem clearing_ends : ClearingEnds r h (Boot.clearBss (opsWith run) r h) := by
  by_cases empty : r.stop ≤ r.start
  · rw [clearBss_clearable_run run h (.inl empty), BssRegion.words_empty r empty]
    exact .nothing empty
  · have below : r.start < r.stop := BitVec.not_le.mp empty
    by_cases aligned : Aligned Platform.clearStep r.start
    · by_cases room : r.stop ≤ BssRegion.lastWord
      · rw [clearBss_clearable_run run h (.inr ⟨aligned, BssRegion.le_lastWord.mp room⟩)]
        exact .done below aligned room (zeroed_cleared r.words h)
      · have past : BssRegion.lastWord < r.stop := BitVec.not_le.mp room
        obtain ⟨before, last⟩ := BssRegion.words_past below aligned past
        rw [clearBss_overflow run h below aligned past]
        exact .overflowed below aligned past last (zeroed_cleared r.words h)
    · rw [clearBss_misaligned run h below aligned]
      exact .refused below aligned

end

theorem checked_region_cleared (run : Word → HartM Exit) {r : BssRegion}
    (checked : BssRegion.check r.start r.stop = .ok r) (h : Hart) :
    ∃ after, Boot.clearBss (opsWith run) r h = .ok () after ∧ Cleared r.words h after :=
  ⟨_, clearBss_clearable_run run h (BssRegion.checked_clearable checked), zeroed_cleared r.words h⟩

/-- Clearing a region does what its bounds say. Its words are those from the start on, in steps of a word, that are
    below the end, each once and in ascending order. A checked region is cleared to the end, its words have its size
    and are made of just its bytes. -/
theorem clearing_exact (depth : Nat) (h : Hart) :
    (∀ r, ClearingEnds r h (Boot.clearBss (opsAt depth) r h)) ∧
      (∀ r : BssRegion, r.words.Pairwise (· < ·) ∧ ∀ a, a ∈ r.words ↔
        r.start ≤ a ∧ a < r.stop ∧ (a.toNat - r.start.toNat) % Platform.clearStep = 0) ∧
      ∀ start stop r, BssRegion.check start stop = .ok r →
        r = ⟨start, stop⟩ ∧ (∃ after, Boot.clearBss (opsAt depth) r h = .ok () after ∧ Cleared r.words h after) ∧
          r.words.length * Platform.clearStep = r.size.toNat ∧
          ∀ byte, r.contains byte = true ↔ ∃ word ∈ r.words, BssRegion.InWord word byte := by
  rw [opsAt_eq]
  refine ⟨fun r => clearing_ends _ h, fun r => ⟨BssRegion.words_ascending, fun _ => BssRegion.mem_words⟩, ?_⟩
  intro start stop r accepted
  have same := (BssRegion.check_eq_ok.mp accepted).2
  have checked : BssRegion.check r.start r.stop = .ok r := by
    rw [same] at accepted ⊢
    exact accepted
  exact ⟨same, checked_region_cleared _ checked h, BssRegion.checked_size checked, BssRegion.checked_bytes checked⟩

/-- A hart in whose memory the first word of a region and the word before it are filled. -/
def filledHart : Hart := ((Hart.new Platform.bootHart [] 3).filled 0x1ff8 0xdead).filled 0x2000 0xdead

theorem clearing_exact_filledHart :
    BssRegion.check 0x2000 0x2010 = .ok ⟨0x2000, 0x2010⟩ ∧
      (∃ after, Boot.clearBss (opsAt 0) ⟨0x2000, 0x2010⟩ filledHart = .ok () after ∧
        Cleared [0x2000, 0x2008] filledHart after) ∧
      2 * Platform.clearStep = 0x10 ∧
      ∀ byte, BssRegion.contains ⟨0x2000, 0x2010⟩ byte = true ↔
        ∃ word ∈ [(0x2000 : Word), 0x2008], BssRegion.InWord word byte := by
  have checked : BssRegion.check 0x2000 0x2010 = .ok ⟨0x2000, 0x2010⟩ := rfl
  exact ⟨checked, ((clearing_exact 0 filledHart).2.2 _ _ _ checked).2⟩

end HartBoot.Sim
