import AuraProtocol.Core
import AuraProtocol.Lib.BitWindow

/-!
# The replay window of a call

`protocol/voip/replay_window.rs`: the highest frame counter accepted and a bitmap of
the 128 counters from it downwards, in two words.  There is no flag for a window that
is still empty; it reads as the window of the highest counter zero without its bit.
-/

namespace AuraProtocol.Voip

open BitWindow

def windowSize : ℕ := 128

def bitmapWords : ℕ := 128 / 64

structure ReplayWindow where
  highWater : ℕ
  bitmap : Words bitmapWords
  deriving DecidableEq

namespace ReplayWindow

def new : ReplayWindow := ⟨0, zero bitmapWords⟩

def check (w : ReplayWindow) (counter : ℕ) : Bool :=
  if w.highWater < counter then true
  else
    let delta := w.highWater - counter
    if windowSize ≤ delta then false
    else decide (word w.bitmap (delta / 64) &&& ((1 : BitVec 64) <<< (delta % 64)) = 0)

def mark (w : ReplayWindow) (counter : ℕ) : ReplayWindow :=
  if w.highWater < counter then
    ⟨counter, set (shift w.bitmap (counter - w.highWater)) 0⟩
  else
    let delta := w.highWater - counter
    if delta < windowSize then { w with bitmap := set w.bitmap delta } else w

/-- The window stands for the set of accepted counters `seen`. -/
def Tracks (w : ReplayWindow) (seen : Finset ℕ) : Prop := Records w.highWater w.bitmap seen

variable {w : ReplayWindow} {seen : Finset ℕ} {counter : ℕ}

theorem tracks_new : Tracks new ∅ := Records.empty

/-- A counter passes if it was not accepted and is less than the window size below every
accepted one. -/
theorem Tracks.check_iff (h : Tracks w seen) :
    w.check counter = true ↔ counter ∉ seen ∧ ∀ m ∈ seen, m < counter + windowSize := by
  rw [check]
  by_cases hnew : w.highWater < counter
  · rw [if_pos hnew]
    refine ⟨fun _ => ⟨fun hmem => ?_, fun m hm => ?_⟩, fun _ => rfl⟩
    · exact absurd (h.le_high hmem) (not_le.mpr hnew)
    · have := h.le_high hm
      omega
  rw [if_neg hnew]
  dsimp only
  by_cases hold : windowSize ≤ w.highWater - counter
  · -- so far above zero the largest element is an accepted counter
    rw [if_pos hold]
    refine ⟨fun hfalse => (by cases hfalse), fun hcheck => ?_⟩
    have hne : seen.Nonempty := by
      rw [Finset.nonempty_iff_ne_empty]
      rintro rfl
      have := h.high_eq
      rw [Finset.sup_empty] at this
      rw [this, windowSize] at hold
      exact absurd hold (by simp)
    have := hcheck.2 _ (h.high_mem hne)
    rw [windowSize] at hold this
    omega
  · have hreach : w.highWater - counter < bitmapWords * 64 := by
      rw [windowSize] at hold
      rw [bitmapWords]
      omega
    have hbit := h.bit_iff _ hreach
    rw [Nat.sub_sub_self (not_lt.mp hnew)] at hbit
    rw [if_neg hold, decide_eq_true_iff, and_one_shiftLeft_eq_zero _ (Nat.mod_lt _ (by decide)),
      ← Bool.not_eq_true]
    change ¬ bit w.bitmap (w.highWater - counter) = true ↔ _
    rw [hbit]
    constructor
    · intro hmem
      refine ⟨fun hm => hmem ⟨Nat.sub_le _ _, hm⟩, fun m hm => ?_⟩
      have := h.le_high hm
      omega
    · exact fun hcheck hboth => hcheck.1 hboth.2

/-- Marking a counter that passes adds it to the set. -/
theorem Tracks.mark (h : Tracks w seen) (hcheck : w.check counter = true) :
    Tracks (w.mark counter) (insert counter seen) := by
  rw [ReplayWindow.mark]
  by_cases hnew : w.highWater < counter
  · rw [if_pos hnew]
    exact h.advance hnew (by decide)
  · have hreach : w.highWater - counter < windowSize := by
      rw [check, if_neg hnew] at hcheck
      dsimp only at hcheck
      split_ifs at hcheck with hold
      exact not_le.mp hold
    rw [if_neg hnew]
    dsimp only
    rw [if_pos hreach]
    exact h.fill (not_lt.mp hnew) hreach

end ReplayWindow

end AuraProtocol.Voip
