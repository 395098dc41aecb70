import Snapcastc.LibraryComparator

/-! Time values and their arithmetic (`timespec.c`). Seconds and nanoseconds are C `long`s; the
nanosecond sum of `timeAdd` is normalised by a loop whose comparison is done in `unsigned long`. -/

namespace Snapcastc

/-- `struct timespec`. -/
structure Timespec where
  tvSec : Int
  tvNsec : Int
  deriving DecidableEq, Repr, Inhabited

/-- `BILLION`, an `unsigned long` constant. -/
def billion : Nat := 1000000000

/-- The loop of `timeAdd`. The first argument bounds the number of rounds; `timeAdd` passes the
number of rounds the loop makes. -/
def timeAddLoop : Nat → Int → Nat → Timespec
  | 0, sec, nsec => ⟨sec, nsec⟩
  | rounds + 1, sec, nsec =>
      if billion ≤ nsec then timeAddLoop rounds (sec + 1) (nsec - billion) else ⟨sec, nsec⟩

/-- `timeAdd`. -/
def timeAdd (t1 t2 : Timespec) : Timespec :=
  let sec := t2.tvSec + t1.tvSec
  -- `nsec >= BILLION` converts the signed sum to `unsigned long`
  let nsec := ((t2.tvNsec + t1.tvNsec) % 2 ^ 64).toNat
  timeAddLoop (nsec / billion) sec nsec

def timespecCmp (a b : Timespec) : Int :=
  if a.tvSec < b.tvSec then -1
  else if a.tvSec > b.tvSec then 1
  else if a.tvNsec < b.tvNsec then -1
  else if a.tvNsec > b.tvNsec then 1
  else 0

/-- `timeAddMs`. The quotient and the remainder truncate towards zero, as in C. -/
def timeAddMs (t1 : Timespec) (ms : Int32) : Timespec :=
  timeAdd t1 ⟨ms.toInt.tdiv 1000, ms.toInt.tmod 1000 * 1000000⟩

/-- `timediff`: a magnitude and a sign. -/
structure Timediff where
  time : Timespec
  sign : Int
  deriving DecidableEq, Repr

/-- `timeSub`. The difference of the seconds is computed in `uint64_t` and stored in a `long`, so
the borrow below zero comes back as `-1`. -/
def timeSub (t1 t2 : Timespec) : Timediff :=
  let swapped := decide (timespecCmp t1 t2 < 0)
  let it1 := if swapped then t2 else t1
  let it2 := if swapped then t1 else t2
  let time : Timespec :=
    if it1.tvNsec ≥ it2.tvNsec then ⟨it1.tvSec - it2.tvSec, it1.tvNsec - it2.tvNsec⟩
    else ⟨it1.tvSec - it2.tvSec - 1, billion - it2.tvNsec + it1.tvNsec⟩
  ⟨time, if swapped then -1 else 1⟩

/-- `timeSubMs`. -/
def timeSubMs (t1 : Timespec) (ms : Int32) : Timespec :=
  (timeSub t1 ⟨ms.toInt.tdiv 1000, ms.toInt.tmod 1000 * 1000000⟩).time

/-- `timespec_isnear`: 1 when `t2` lies between `t1` and `t1` moved by `chunkms` either way. -/
def timespecIsnear (t1 t2 : Timespec) (chunkms : Int32) : Int :=
  if timespecCmp t2 (timeAddMs t1 chunkms) ≤ 0 ∧ timespecCmp t2 t1 ≥ 0 then 1
  else if timespecCmp t2 (timeSubMs t1 chunkms) ≥ 0 ∧ timespecCmp t2 t1 ≤ 0 then 1
  else 0

/-- `settime`: the due time of a task posted at the monotonic time `now`. -/
def settime (now : Timespec) (timeout millisecs : Int) : Timespec :=
  timeAdd now ⟨timeout, millisecs * 1000000⟩

namespace Timespec

/-- The nanoseconds are those of a clock reading. -/
def Normalised (t : Timespec) : Prop := 0 ≤ t.tvNsec ∧ t.tvNsec < billion

instance (t : Timespec) : Decidable t.Normalised := inferInstanceAs (Decidable (_ ∧ _))

end Timespec

theorem timespecCmp_le_iff (a b : Timespec) :
    timespecCmp a b ≤ 0 ↔ a.tvSec < b.tvSec ∨ a.tvSec = b.tvSec ∧ a.tvNsec ≤ b.tvNsec := by
  unfold timespecCmp
  split_ifs <;> omega

theorem timespecCmp_pos_iff (a b : Timespec) :
    0 < timespecCmp a b ↔ b.tvSec < a.tvSec ∨ b.tvSec = a.tvSec ∧ b.tvNsec < a.tvNsec := by
  unfold timespecCmp
  split_ifs <;> omega

theorem timespecCmp_neg_iff (a b : Timespec) :
    timespecCmp a b < 0 ↔ a.tvSec < b.tvSec ∨ a.tvSec = b.tvSec ∧ a.tvNsec < b.tvNsec := by
  unfold timespecCmp
  split_ifs <;> omega

theorem timespecCmp_eq_zero_iff (a b : Timespec) : timespecCmp a b = 0 ↔ a = b := by
  have hneg := timespecCmp_neg_iff a b
  have hpos := timespecCmp_pos_iff a b
  constructor
  · intro hzero
    have hsec : a.tvSec = b.tvSec := by omega
    have hnsec : a.tvNsec = b.tvNsec := by omega
    cases a
    cases b
    simp_all
  · rintro rfl
    omega

theorem timespecCmp_totalPreorder : Comparator.TotalPreorder timespecCmp where
  swap a b := by
    rw [timespecCmp_pos_iff, timespecCmp_neg_iff]
  trans a b c hab hbc := by
    rw [timespecCmp_le_iff] at *
    omega

/-- The normalising loop divides by `BILLION`. -/
theorem timeAddLoop_eq (sec : Int) (nsec : Nat) :
    timeAddLoop (nsec / billion) sec nsec = ⟨sec + nsec / billion, nsec % billion⟩ := by
  have hgen : ∀ (rounds : Nat) (sec : Int) (nsec : Nat), nsec / billion = rounds →
      timeAddLoop rounds sec nsec = ⟨sec + rounds, nsec % billion⟩ := by
    intro rounds
    induction rounds with
    | zero =>
        intro sec nsec hrounds
        unfold billion at *
        simp only [timeAddLoop, Timespec.mk.injEq]
        omega
    | succ rounds ih =>
        intro sec nsec hrounds
        have hle : billion ≤ nsec := by
          unfold billion at *
          omega
        have hrest : (nsec - billion) / billion = rounds := by
          unfold billion at *
          omega
        rw [timeAddLoop, if_pos hle, ih _ _ hrest]
        unfold billion at *
        simp only [Timespec.mk.injEq]
        omega
  exact hgen _ sec nsec rfl

/-- With a delay that is not negative a task is due no earlier than the time it was posted at. The bound
says that the nanoseconds fit in a `long`. -/
theorem settime_spec {now : Timespec} (hnow : now.Normalised) {timeout millisecs : Int}
    (htimeout : 0 ≤ timeout) (hmillisecs : 0 ≤ millisecs)
    (hfits : millisecs * 1000000 + now.tvNsec < 2 ^ 63) :
    timespecCmp now (settime now timeout millisecs) ≤ 0 := by
  obtain ⟨hlo, hhi⟩ := hnow
  have hsum : ((((millisecs : Int) * 1000000 + now.tvNsec) % 2 ^ 64).toNat : Int) =
      (millisecs : Int) * 1000000 + now.tvNsec := by
    omega
  rw [timespecCmp_le_iff]
  unfold settime timeAdd
  simp only [timeAddLoop_eq, hsum]
  unfold billion at *
  omega

/-! ### Nanoseconds -/

/-- The time in nanoseconds. -/
def Timespec.toNs (t : Timespec) : Int := t.tvSec * billion + t.tvNsec

theorem timespecCmp_le_iff_toNs {a b : Timespec} (ha : a.Normalised) (hb : b.Normalised) :
    timespecCmp a b ≤ 0 ↔ a.toNs ≤ b.toNs := by
  obtain ⟨halo, hahi⟩ := ha
  obtain ⟨hblo, hbhi⟩ := hb
  rw [timespecCmp_le_iff]
  unfold Timespec.toNs billion at *
  omega

theorem timespecCmp_pos_iff_toNs {a b : Timespec} (ha : a.Normalised) (hb : b.Normalised) :
    0 < timespecCmp a b ↔ b.toNs < a.toNs := by
  have hle := timespecCmp_le_iff_toNs ha hb
  omega

theorem toNs_inj {a b : Timespec} (ha : a.Normalised) (hb : b.Normalised) (heq : a.toNs = b.toNs) :
    a = b := by
  obtain ⟨asec, ansec⟩ := a
  obtain ⟨bsec, bnsec⟩ := b
  unfold Timespec.Normalised Timespec.toNs billion at *
  dsimp only at *
  rw [Timespec.mk.injEq]
  omega

/-- A sum is normalised, and the time is what it should be. -/
theorem timeAdd_spec {t1 t2 : Timespec} (h1 : t1.Normalised) (h2 : t2.Normalised) :
    (timeAdd t1 t2).Normalised ∧ (timeAdd t1 t2).toNs = t1.toNs + t2.toNs := by
  obtain ⟨hlo1, hhi1⟩ := h1
  obtain ⟨hlo2, hhi2⟩ := h2
  have hsum : (((t2.tvNsec + t1.tvNsec) % 2 ^ 64).toNat : Int) = t2.tvNsec + t1.tvNsec := by
    unfold billion at *
    omega
  unfold timeAdd
  simp only [timeAddLoop_eq]
  generalize ((t2.tvNsec + t1.tvNsec) % 2 ^ 64).toNat = nsec at hsum ⊢
  unfold Timespec.Normalised Timespec.toNs billion
  dsimp only
  omega

/-- The `struct timespec` that `timeAddMs` and `timeSubMs` make of a number of milliseconds. -/
theorem ms_spec {ms : Int} (hms : 0 ≤ ms) :
    Timespec.Normalised ⟨ms.tdiv 1000, ms.tmod 1000 * 1000000⟩ ∧
      Timespec.toNs ⟨ms.tdiv 1000, ms.tmod 1000 * 1000000⟩ = ms * 1000000 := by
  rw [Int.tdiv_eq_ediv_of_nonneg hms, Int.tmod_eq_emod_of_nonneg hms]
  unfold Timespec.Normalised Timespec.toNs billion
  dsimp only
  omega

/-- `timeAddMs` adds milliseconds. -/
theorem timeAddMs_spec {t : Timespec} (ht : t.Normalised) {ms : Int32} (hms : 0 ≤ ms.toInt) :
    (timeAddMs t ms).Normalised ∧ (timeAddMs t ms).toNs = t.toNs + ms.toInt * 1000000 := by
  obtain ⟨hadded, hvalue⟩ := ms_spec hms
  obtain ⟨hnormal, hsum⟩ := timeAdd_spec ht hadded
  exact ⟨hnormal, hsum.trans (congrArg (t.toNs + ·) hvalue)⟩

/-- `timeAddMs` on any number of milliseconds. When the sum of the nanoseconds is negative, the comparison of
the normalising loop takes it for one that is 2^64 larger. -/
theorem timeAddMs_signed {t : Timespec} (ht : t.Normalised) (ms : Int32) :
    (timeAddMs t ms).Normalised ∧
      (timeAddMs t ms).toNs = t.toNs + ms.toInt * 1000000 +
        if t.tvNsec + ms.toInt.tmod 1000 * 1000000 < 0 then 2 ^ 64 else 0 := by
  obtain ⟨hlo, hhi⟩ := ht
  have hparts := Int.mul_tdiv_add_tmod ms.toInt 1000
  have hbelow := Int.tmod_lt_of_pos ms.toInt (show (0 : Int) < 1000 by decide)
  have habove := Int.lt_tmod_of_pos ms.toInt (show (0 : Int) < 1000 by decide)
  unfold timeAddMs timeAdd
  simp only [timeAddLoop_eq]
  generalize ms.toInt.tdiv 1000 = sec at *
  generalize ms.toInt.tmod 1000 = rest at *
  have hsum : (((rest * 1000000 + t.tvNsec) % 2 ^ 64).toNat : Int) =
      rest * 1000000 + t.tvNsec + if t.tvNsec + rest * 1000000 < 0 then 2 ^ 64 else 0 := by
    unfold billion at *
    split_ifs <;> omega
  generalize ((rest * 1000000 + t.tvNsec) % 2 ^ 64).toNat = nsec at hsum ⊢
  generalize (if t.tvNsec + rest * 1000000 < 0 then (2 : Int) ^ 64 else 0) = borrow at hsum ⊢
  unfold Timespec.Normalised Timespec.toNs billion
  dsimp only
  omega

theorem timespecCmp_neg_iff_toNs {a b : Timespec} (ha : a.Normalised) (hb : b.Normalised) :
    timespecCmp a b < 0 ↔ a.toNs < b.toNs := by
  have hneg := timespecCmp_neg_iff a b
  have hpos := timespecCmp_pos_iff b a
  have hvalue := timespecCmp_pos_iff_toNs hb ha
  tauto

theorem timespecCmp_eq_zero_iff_toNs {a b : Timespec} (ha : a.Normalised) (hb : b.Normalised) :
    timespecCmp a b = 0 ↔ a.toNs = b.toNs :=
  (timespecCmp_eq_zero_iff a b).trans ⟨congrArg Timespec.toNs, toNs_inj ha hb⟩

theorem timeSub_sign (t1 t2 : Timespec) :
    (timeSub t1 t2).sign = if timespecCmp t1 t2 < 0 then -1 else 1 := by
  simp [timeSub]

/-- A difference is a normalised magnitude, and a sign that goes with it. -/
theorem timeSub_spec {t1 t2 : Timespec} (h1 : t1.Normalised) (h2 : t2.Normalised) :
    (timeSub t1 t2).time.Normalised ∧ 0 ≤ (timeSub t1 t2).time.tvSec ∧
      t1.toNs - t2.toNs = (timeSub t1 t2).sign * (timeSub t1 t2).time.toNs := by
  have hneg := timespecCmp_neg_iff t1 t2
  obtain ⟨hlo1, hhi1⟩ := h1
  obtain ⟨hlo2, hhi2⟩ := h2
  unfold timeSub Timespec.Normalised Timespec.toNs billion at *
  -- the order of the two decides which is subtracted, their nanoseconds whether there is a borrow
  by_cases hswapped : timespecCmp t1 t2 < 0
  · simp only [hswapped, decide_true, if_true]
    rw [hneg] at hswapped
    split_ifs <;> dsimp only <;> omega
  · simp only [hswapped, decide_false, Bool.false_eq_true, if_false]
    rw [hneg] at hswapped
    split_ifs <;> dsimp only <;> omega

/-- The difference to a later time, whose nanoseconds may be any number of them. -/
theorem timeSub_of_lt {t1 t2 : Timespec} (h1 : t1.Normalised) (h2 : 0 ≤ t2.tvNsec)
    (hlt : timespecCmp t1 t2 < 0) :
    (timeSub t1 t2).sign = -1 ∧ 0 ≤ (timeSub t1 t2).time.tvSec ∧ 0 ≤ (timeSub t1 t2).time.tvNsec ∧
      (timeSub t1 t2).time.toNs = t2.toNs - t1.toNs := by
  have hneg := (timespecCmp_neg_iff t1 t2).mp hlt
  obtain ⟨hlo, hhi⟩ := h1
  unfold timeSub Timespec.toNs billion at *
  simp only [hlt, decide_true, if_true, true_and]
  split_ifs <;> dsimp only <;> omega

/-- `timeSubMs` drops the sign of the difference. -/
theorem timeSubMs_spec {t : Timespec} (ht : t.Normalised) {ms : Int32} (hms : 0 ≤ ms.toInt) :
    (timeSubMs t ms).Normalised ∧ (timeSubMs t ms).toNs = |t.toNs - ms.toInt * 1000000| := by
  obtain ⟨hadded, hvalue⟩ := ms_spec hms
  obtain ⟨hnormal, hsec, hdiff⟩ := timeSub_spec ht hadded
  refine ⟨hnormal, ?_⟩
  have hmagnitude : 0 ≤ (timeSubMs t ms).toNs := by
    have hnsec := hnormal.1
    unfold timeSubMs Timespec.toNs billion
    omega
  rw [hvalue] at hdiff
  rw [hdiff, timeSub_sign]
  split_ifs
  · rw [neg_one_mul, abs_neg]
    exact (abs_of_nonneg hmagnitude).symm
  · rw [one_mul]
    exact (abs_of_nonneg hmagnitude).symm

/-- `timespec_isnear` is 1 within a distance, as long as the distance does not reach below zero. -/
theorem timespecIsnear_iff {t1 t2 : Timespec} (h1 : t1.Normalised) (h2 : t2.Normalised) {ms : Int32}
    (hms : 0 ≤ ms.toInt) (hvalue : ms.toInt * 1000000 ≤ t1.toNs) :
    timespecIsnear t1 t2 ms = 1 ↔ |t1.toNs - t2.toNs| ≤ ms.toInt * 1000000 := by
  obtain ⟨haddNormal, hadd⟩ := timeAddMs_spec h1 hms
  obtain ⟨hsubNormal, hsub⟩ := timeSubMs_spec h1 hms
  rw [abs_of_nonneg (by omega)] at hsub
  have habove := timespecCmp_le_iff_toNs h2 haddNormal
  have hbelow := timespecCmp_neg_iff_toNs h2 hsubNormal
  have hle := timespecCmp_le_iff_toNs h2 h1
  have hlt := timespecCmp_neg_iff_toNs h2 h1
  rw [abs_le]
  unfold timespecIsnear
  split_ifs <;> omega

/-- The values are compared, added and subtracted as they should be. -/
theorem timespec_arithmetic {t1 t2 : Timespec} (h1 : t1.Normalised) (h2 : t2.Normalised) {ms : Int32}
    (hms : 0 ≤ ms.toInt) :
    (timespecCmp t1 t2 < 0 ↔ t1.toNs < t2.toNs) ∧ (timespecCmp t1 t2 = 0 ↔ t1.toNs = t2.toNs) ∧
      (0 < timespecCmp t1 t2 ↔ t2.toNs < t1.toNs) ∧
      ((timeAdd t1 t2).Normalised ∧ (timeAdd t1 t2).toNs = t1.toNs + t2.toNs) ∧
      ((timeAddMs t1 ms).Normalised ∧ (timeAddMs t1 ms).toNs = t1.toNs + ms.toInt * 1000000) ∧
      ((timeSub t1 t2).time.Normalised ∧ 0 ≤ (timeSub t1 t2).time.tvSec ∧
        t1.toNs - t2.toNs = (timeSub t1 t2).sign * (timeSub t1 t2).time.toNs) ∧
      (0 ≤ t1.toNs - ms.toInt * 1000000 →
        (timeSubMs t1 ms).Normalised ∧ (timeSubMs t1 ms).toNs = t1.toNs - ms.toInt * 1000000) ∧
      (ms.toInt * 1000000 ≤ t1.toNs →
        (timespecIsnear t1 t2 ms = 1 ↔ |t1.toNs - t2.toNs| ≤ ms.toInt * 1000000)) := by
  refine ⟨timespecCmp_neg_iff_toNs h1 h2, timespecCmp_eq_zero_iff_toNs h1 h2,
    timespecCmp_pos_iff_toNs h1 h2, timeAdd_spec h1 h2, timeAddMs_spec h1 hms, timeSub_spec h1 h2,
    ?_, timespecIsnear_iff h1 h2 hms⟩
  intro hleft
  obtain ⟨hnormal, hdiff⟩ := timeSubMs_spec h1 hms
  exact ⟨hnormal, hdiff.trans (abs_of_nonneg hleft)⟩

theorem timespec_arithmetic_borrow :
    (timeSub ⟨7, 100⟩ ⟨5, 999999999⟩).time.Normalised ∧
      timespecIsnear ⟨7, 100⟩ ⟨5, 999999999⟩ 1001 = 1 :=
  have hexact := @timespec_arithmetic ⟨7, 100⟩ ⟨5, 999999999⟩ (by decide) (by decide) 1001 (by decide)
  ⟨hexact.2.2.2.2.2.1.1, (hexact.2.2.2.2.2.2.2 (by decide)).mpr (by decide)⟩

end Snapcastc
