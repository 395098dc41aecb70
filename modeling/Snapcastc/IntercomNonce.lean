import Snapcastc.IntercomClient

/-! The numbers that `get_nonce` gives successive packets against the successors that `is_next_chunk`
expects. -/

namespace Snapcastc

/-- The numbers of two successive packets of a stream. -/
def successiveNonces (counter : UInt32) : UInt32 × UInt32 :=
  let first := getNonce (some counter)
  (first.1, (getNonce first.2).1)

/-- The two numbers differ, and a client that has the first takes the second for the next chunk. -/
def TakenForNext (counter : UInt32) : Prop :=
  let nonces := successiveNonces counter
  nonces.1 ≠ nonces.2 ∧ isNextChunk nonces.1.toNat nonces.2 = true

instance (counter : UInt32) : Decidable (TakenForNext counter) := inferInstanceAs (Decidable (_ ∧ _))

theorem nonce_of_lt {counter : UInt32} (hlt : counter.toNat < nonceMax.toNat) :
    counter % nonceMax = counter := by
  apply UInt32.toNat_inj.mp
  rw [UInt32.toNat_mod]
  exact Nat.mod_eq_of_lt hlt

theorem isNextChunk_succ {counter : UInt32} (hlt : counter.toNat < nonceMax.toNat) :
    isNextChunk counter.toNat (counter + 1) = true := by
  have hne : counter.toNat ≠ nonceMax.toNat := hlt.ne
  simp [isNextChunk, hne]

/-- The generator and the detector agree on the successor except where the counter wraps around: the
generator leaves `NONCE_MAX` out and gives 0 twice, the detector waits for 0 after `NONCE_MAX`. -/
theorem takenForNext_iff (counter : UInt32) :
    TakenForNext counter ↔ counter.toNat < nonceMax.toNat - 1 := by
  have hcounter := counter.toNat_lt
  by_cases hsmall : counter.toNat < nonceMax.toNat - 1
  · refine ⟨fun _ => hsmall, fun _ => ?_⟩
    have hmax : nonceMax.toNat = 2 ^ 32 - 1 := rfl
    have hsucc : (counter + 1).toNat = counter.toNat + 1 := by
      rw [UInt32.toNat_add]
      have hone : (1 : UInt32).toNat = 1 := rfl
      exact Nat.mod_eq_of_lt (by omega)
    have hfirst : counter % nonceMax = counter := nonce_of_lt (by omega)
    have hsecond : (counter + 1) % nonceMax = counter + 1 := nonce_of_lt (by omega)
    simp only [TakenForNext, successiveNonces, getNonce, hfirst, hsecond]
    refine ⟨fun heq => ?_, isNextChunk_succ (by omega)⟩
    have := congrArg UInt32.toNat heq
    omega
  · -- the last two values of the counter
    have hmax : nonceMax.toNat = 2 ^ 32 - 1 := rfl
    refine ⟨fun htaken => ?_, fun hlt => absurd hlt hsmall⟩
    have hlast : counter = 0xFFFFFFFE ∨ counter = 0xFFFFFFFF := by
      have htoNat : counter.toNat = 0xFFFFFFFE ∨ counter.toNat = 0xFFFFFFFF := by omega
      exact htoNat.imp UInt32.toNat_inj.mp UInt32.toNat_inj.mp
    rcases hlast with rfl | rfl
    · exact absurd htaken (by decide)
    · exact absurd htaken (by decide)

/-- The packet after number `0xFFFFFFFE` has number 0, which is not taken for the next one. -/
theorem wraparound_not_taken :
    successiveNonces 0xFFFFFFFE = (0xFFFFFFFE, 0) ∧ ¬TakenForNext 0xFFFFFFFE := by decide

end Snapcastc
