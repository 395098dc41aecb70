import Snapcastc.ClientProcess
import Snapcastc.IntercomClientStorage
import Snapcastc.PcmchunkSilence

/-! What `getchunk` in `alsaplayer.c` gives the device, and when: the time at which the device is ready for
more is compared with the time the next chunk is to be played at. The adjustment of the speed is a
parameter: it is done in floating point by a library. -/

namespace Snapcastc

def nearMs : Int32 := 1

def notEvenCloseMs : Int32 := 30

def chunkIsEmpty (chunk : PcmChunk) : Bool := chunk.playAtTvSec == 0

def intercomGetTimeNextAudiochunk (s : Client) : Timespec :=
  chunkGetPlayAt (s.receivebuffer.bind ReceiveBuffer.peek)

/-- The milliseconds until the device is ready: they are computed in `size_t` and passed as an `int`. -/
def alsaReadyMs (delayFrames : UInt64) (rate latencyMs : UInt32) : Int32 :=
  (delayFrames * 1000 / rate.toUInt64 + latencyMs.toUInt64).toUInt32.toInt32

def tsAlsaReady (ctime : Timespec) (delayFrames : UInt64) (rate latencyMs : UInt32) : Timespec :=
  timeAddMs ctime (alsaReadyMs delayFrames rate latencyMs)

/-- What a round of the loop of `getchunk` finds out about the next chunk. -/
structure Timing where
  tdiff : Timediff
  isNear : Bool
  isClose : Bool
  attemptingStartAndOvershot : Bool
  chunkIsInPast : Bool

/-- The tests of a round. -/
def timing (ready : Timespec) (playing : Bool) (nextchunkPlayat : Timespec) : Timing :=
  let tdiff := timeSub ready nextchunkPlayat
  let isNear := decide (timespecIsnear ready nextchunkPlayat nearMs ≠ 0)
  let isClose := decide (timespecIsnear ready nextchunkPlayat notEvenCloseMs ≠ 0)
  let attemptingStartAndOvershot := !playing && decide (timespecCmp ready nextchunkPlayat ≥ 0)
  { tdiff, isNear, isClose, attemptingStartAndOvershot
    chunkIsInPast := decide (tdiff.sign > 0) && !isNear && !attemptingStartAndOvershot }

/-- The condition of the loop: a chunk is to be dropped. -/
def Timing.drops (t : Timing) (p : PcmChunk) : Bool := t.chunkIsInPast && !t.isClose && !chunkIsEmpty p

/-- The loop of `getchunk`. The condition at its end is that of its body, on the chunk that the body may
have overwritten. -/
def dropLate (ready : Timespec) : Nat → PcmChunk → Client → Except Fault (Timing × PcmChunk × Client)
  | 0, _, _ => throw .endless
  | rounds + 1, p, s =>
      let t := timing ready s.alsaplayer.playing (intercomGetTimeNextAudiochunk s)
      if t.drops p then
        let (chunk, s) := intercomGetnextaudiochunk s
        let p := match chunk with
          | some chunk => chunkFreeMembers chunk
          | none => p
        if t.drops p then dropLate ready rounds p s else pure (t, p, s)
      else pure (t, p, s)

/-- What `adjust_speed` makes of a chunk, by the time its playback starts and the time the chunk after it is
to be played at: the new size and the new data. -/
abbrev SpeedAdjustment := (chunk : PcmChunk) → (startingPlayback nextchunkPlayat : Timespec) → UInt16 × List UInt8

def adjustSpeed (speed : SpeedAdjustment) (s : Client) (chunk : PcmChunk) (startingPlayback : Timespec) :
    PcmChunk :=
  let (size, data) := speed chunk startingPlayback (intercomGetTimeNextAudiochunk s)
  { chunk with size, data }

/-- What `getchunk` leaves: the chunk at `p`, the client, and which chunk of the receive buffer was handed
out, which the program does not keep. -/
structure Fetched where
  chunk : PcmChunk
  taken : Option PcmChunk
  client : Client

/-- The branch of `getchunk` that takes a chunk to play. -/
def playNext (env : ClientEnv) (speed : SpeedAdjustment) (clock : ClientClock) (ready : Timespec) (isNear : Bool)
    (p : PcmChunk) (s : Client) : Except Fault Fetched := do
  let client ← takeChunk env clock s
  match (intercomGetnextaudiochunk s).1 with
  | none => pure ⟨getEmptychunk p 50, none, client⟩
  | some chunk => do
      let decoded ← chunkDecode env.opus s.decoder chunk
      pure ⟨if isNear then decoded else adjustSpeed speed client decoded ready, some chunk, client⟩

def sleepMs (tdiff : Timediff) : Int :=
  if tdiff.sign > 0 then 0
  else if tdiff.time.tvSec = 0 then tdiff.time.tvNsec.tdiv 1000000
  else notEvenCloseMs.toInt

namespace Player

def getchunk (env : ClientEnv) (speed : SpeedAdjustment) (clock : ClientClock) (latencyMs : UInt32)
    (delayFrames : UInt64) (p : PcmChunk) (s : Client) : Except Fault Fetched :=
  if s.alsaplayer.rate = 0 then throw .divisionByZero
  else do
    let ready := tsAlsaReady clock.ctime delayFrames s.alsaplayer.rate latencyMs
    -- a chunk that is dropped leaves an empty one at `p`, which ends the loop
    let (t, p, s) ← dropLate ready 2 p s
    if s.alsaplayer.playing || t.attemptingStartAndOvershot || t.isNear then
      playNext env speed clock ready t.isNear p s
    else pure ⟨getEmptychunk p (UInt32.ofInt (sleepMs t.tdiff)), none, s⟩

/-- The chunk that `alsaplayer_handle` has before it calls `getchunk`. -/
def blankChunk (ctx : AlsaplayerCtx) : PcmChunk := ⟨0, 0, ctx.rate, ctx.frameSize, ctx.channels, 0, 0, []⟩

/-- The delay that `alsaplayer_handle` passes on: what `snd_pcm_delay` has stored, or 0 when it has failed. -/
def delayFrames (delayp : Option Int64) : UInt64 := (delayp.getD 0).toUInt64

/-- The call of `getchunk` in `alsaplayer_handle`. -/
def handleGetchunk (env : ClientEnv) (speed : SpeedAdjustment) (clock : ClientClock) (latencyMs : UInt32)
    (delayp : Option Int64) (s : Client) : Except Fault Fetched :=
  getchunk env speed clock latencyMs (delayFrames delayp) (blankChunk s.alsaplayer) s

end Player

theorem dropLate_iterate {ready : Timespec} {rounds : Nat} {p : PcmChunk} {s : Client}
    {result : Timing × PcmChunk × Client} (hrun : dropLate ready rounds p s = .ok result) :
    ∃ dropped, (fun s => (intercomGetnextaudiochunk s).2)^[dropped] s = result.2.2 := by
  induction rounds generalizing p s with
  | zero => cases hrun
  | succ rounds ih =>
      rw [dropLate] at hrun
      dsimp only at hrun
      split_ifs at hrun
      · obtain ⟨dropped, hdropped⟩ := ih hrun
        exact ⟨dropped + 1, hdropped⟩
      · cases hrun
        exact ⟨1, rfl⟩
      · cases hrun
        exact ⟨0, rfl⟩

theorem playNext_client {env : ClientEnv} {speed : SpeedAdjustment} {clock : ClientClock} {ready : Timespec}
    {isNear : Bool} {p : PcmChunk} {s : Client} {fetched : Fetched}
    (hrun : playNext env speed clock ready isNear p s = .ok fetched) :
    takeChunk env clock s = .ok fetched.client := by
  rw [playNext] at hrun
  obtain ⟨client, htake, hrun⟩ := except_bind_ok hrun
  split at hrun
  · cases hrun
    exact htake
  · obtain ⟨decoded, -, hrun⟩ := except_bind_ok hrun
    cases hrun
    exact htake

/-- The client after `getchunk` is one that the main loop allows for. -/
theorem playerGetchunk_refines {env : ClientEnv} {speed : SpeedAdjustment} {clock : ClientClock}
    {latencyMs : UInt32} {delayFrames : UInt64} {p : PcmChunk} {s : Client} {fetched : Fetched}
    (hrun : Player.getchunk env speed clock latencyMs delayFrames p s = .ok fetched) :
    ∃ dropped takes, getchunk env clock dropped takes s = .ok fetched.client := by
  rw [Player.getchunk] at hrun
  split_ifs at hrun
  obtain ⟨⟨t, p', s'⟩, hloop, hrun⟩ := except_bind_ok hrun
  obtain ⟨dropped, hdropped⟩ := dropLate_iterate hloop
  dsimp only at hrun hdropped
  split_ifs at hrun
  · refine ⟨dropped, true, ?_⟩
    rw [getchunk, hdropped]
    exact playNext_client hrun
  · refine ⟨dropped, false, ?_⟩
    rw [getchunk, hdropped]
    cases hrun
    rfl

/-! ### When the device is ready -/

theorem toInt_toInt32 (x : UInt32) : x.toInt32.toInt = (x.toNat : Int).bmod (2 ^ 32) :=
  BitVec.toInt_eq_toNat_bmod x.toBitVec

/-- A signed number of frames as a `size_t`. -/
theorem toNat_toUInt64 (x : Int64) : (x.toUInt64.toNat : Int) = x.toInt % 2 ^ 64 := by
  have hsigned : x.toInt = (x.toUInt64.toNat : Int).bmod (2 ^ 64) := BitVec.toInt_eq_toNat_bmod x.toBitVec
  have hlt : x.toUInt64.toNat < 2 ^ 64 := x.toUInt64.toNat_lt
  obtain ⟨-, -, hdvd⟩ := (Int.bmod_eq_iff (by norm_num)).mp hsigned.symm
  generalize x.toUInt64.toNat = n at hdvd hlt
  push_cast at hdvd
  omega

theorem alsaReadyMs_eq (delayFrames : UInt64) (rate latencyMs : UInt32) :
    (alsaReadyMs delayFrames rate latencyMs).toInt =
      ((delayFrames.toNat * 1000 % 2 ^ 64 / rate.toNat + latencyMs.toNat : Nat) : Int).bmod (2 ^ 32) := by
  have hthousand : (1000 : UInt64).toNat = 1000 := rfl
  rw [alsaReadyMs, toInt_toInt32, UInt64.toNat_toUInt32, UInt64.toNat_add, UInt64.toNat_div, UInt64.toNat_mul,
    UInt32.toNat_toUInt64, UInt32.toNat_toUInt64, hthousand, Nat.mod_mod_of_dvd _ (by decide)]
  rw [Int.natCast_emod]
  exact Int.emod_bmod _ _

/-- An `int` that fits is what it was. -/
theorem bmod_of_lt {n : Int} (hlo : 0 ≤ n) (hhi : n < 2 ^ 31) : n.bmod (2 ^ 32) = n :=
  Int.bmod_eq_of_le (by omega) (by omega)

theorem lt_of_div_rate_lt {n bound : Nat} {rate : UInt32} (hrate : rate ≠ 0)
    (hquotient : n / rate.toNat < bound) : n < bound * 2 ^ 32 := by
  have hpos : 0 < rate.toNat := by
    refine Nat.pos_of_ne_zero fun hzero => hrate ?_
    rw [← UInt32.toNat_inj, hzero]
    rfl
  calc n < bound * rate.toNat := (Nat.div_lt_iff_lt_mul hpos).mp hquotient
    _ ≤ bound * 2 ^ 32 := Nat.mul_le_mul_left _ rate.toNat_lt.le

/-- A delay that is not negative is converted exactly. -/
theorem alsaReadyMs_of_nonneg {delayp : Int64} {rate latencyMs : UInt32} (hrate : rate ≠ 0)
    (hdelay : 0 ≤ delayp.toInt) (hfits : delayp.toInt * 1000 / rate.toNat + latencyMs.toNat < 2 ^ 31) :
    (alsaReadyMs delayp.toUInt64 rate latencyMs).toInt = delayp.toInt * 1000 / rate.toNat + latencyMs.toNat := by
  obtain ⟨frames, hframes⟩ := Int.eq_ofNat_of_zero_le hdelay
  have hstored := toNat_toUInt64 delayp
  have hbound := delayp.toInt_lt
  rw [hframes] at hfits hbound ⊢
  have hsame : delayp.toUInt64.toNat = frames := by omega
  have hquotient : frames * 1000 / rate.toNat < 2 ^ 31 := by
    have hcast : ((frames * 1000 / rate.toNat : Nat) : Int) = (frames : Int) * 1000 / rate.toNat := by
      push_cast
      rfl
    omega
  have hsmall : frames * 1000 < 2 ^ 64 := (lt_of_div_rate_lt hrate hquotient).trans (by norm_num)
  rw [alsaReadyMs_eq, hsame, Nat.mod_eq_of_lt hsmall]
  push_cast
  exact bmod_of_lt (by positivity) hfits

/-- A negative delay comes out as itself when the quotient of its complement and that of its magnitude add
up to a multiple of 2^32. -/
theorem alsaReadyMs_of_neg {delayp : Int64} {rate latencyMs : UInt32} {frames : Nat}
    (hframes : delayp.toInt = -frames) (hneg : delayp.toInt < 0) (hdelay : frames * 1000 < 2 ^ 64)
    (hms : frames * 1000 / rate.toNat < 2 ^ 31) (hlatency : latencyMs.toNat < 2 ^ 31) :
    (alsaReadyMs delayp.toUInt64 rate latencyMs).toInt = latencyMs.toNat - (frames * 1000 / rate.toNat : Nat) ↔
      2 ^ 32 ∣ (2 ^ 64 - frames * 1000) / rate.toNat + frames * 1000 / rate.toNat := by
  have hstored := toNat_toUInt64 delayp
  have hproduct : delayp.toUInt64.toNat * 1000 % 2 ^ 64 = 2 ^ 64 - frames * 1000 := by omega
  rw [alsaReadyMs_eq, hproduct, Int.bmod_eq_iff (by norm_num)]
  generalize (2 ^ 64 - frames * 1000) / rate.toNat = complement
  generalize frames * 1000 / rate.toNat = magnitude at hms ⊢
  push_cast
  constructor
  · rintro ⟨-, -, hdvd⟩
    omega
  · intro hdvd
    refine ⟨?_, ?_, ?_⟩ <;> omega

theorem tdiv_neg_mul (frames rate : Nat) :
    ((-frames : Int) * 1000).tdiv rate = -(frames * 1000 / rate : Nat) := by
  rw [neg_mul, Int.neg_tdiv]
  push_cast
  rw [Int.tdiv_eq_ediv_of_nonneg (by positivity)]

/-- When a negative delay of so many frames still gives the right time: its conversion is exact, and the
time that is added, a negative one perhaps, takes no more than the nanoseconds there are. -/
def UnderrunExact (ctime : Timespec) (rate latencyMs : UInt32) (frames : Nat) : Prop :=
  2 ^ 32 ∣ (2 ^ 64 - frames * 1000) / rate.toNat + frames * 1000 / rate.toNat ∧
    0 ≤ ctime.tvNsec + ((latencyMs.toNat : Int) - (frames * 1000 / rate.toNat : Nat)).tmod 1000 * 1000000

/-- The time at which the device is ready is right for every delay that is not negative, and for a negative
one exactly when its conversion to `size_t` does no harm. -/
theorem tsAlsaReady_exact_iff {ctime : Timespec} (hctime : ctime.Normalised) {rate latencyMs : UInt32}
    (hrate : rate ≠ 0) (hlatency : latencyMs.toNat < 2 ^ 31 - 2 ^ 21) {delayp : Int64}
    (hdelay : delayp.toInt.natAbs * 1000 / rate.toNat < 2 ^ 20) :
    ((tsAlsaReady ctime (Player.delayFrames (some delayp)) rate latencyMs).Normalised ∧
      (tsAlsaReady ctime (Player.delayFrames (some delayp)) rate latencyMs).toNs =
        ctime.toNs + ((delayp.toInt * 1000).tdiv rate.toNat + latencyMs.toNat) * 1000000) ↔
    0 ≤ delayp.toInt ∨ UnderrunExact ctime rate latencyMs delayp.toInt.natAbs := by
  rw [show Player.delayFrames (some delayp) = delayp.toUInt64 from rfl, tsAlsaReady]
  obtain ⟨hnormal, hvalue⟩ := timeAddMs_signed hctime (alsaReadyMs delayp.toUInt64 rate latencyMs)
  rcases lt_or_ge delayp.toInt 0 with hneg | hpos
  · obtain ⟨frames, hframes⟩ : ∃ frames : Nat, delayp.toInt = -frames := ⟨delayp.toInt.natAbs, by omega⟩
    have habs : delayp.toInt.natAbs = frames := by omega
    rw [habs] at hdelay
    have hsmall : frames * 1000 < 2 ^ 64 := (lt_of_div_rate_lt hrate hdelay).trans (by norm_num)
    have hexact := @alsaReadyMs_of_neg delayp rate latencyMs frames hframes hneg hsmall (by omega) (by omega)
    rw [hvalue, habs, hframes, tdiv_neg_mul, UnderrunExact, ← hexact]
    generalize (frames * 1000 / rate.toNat : Nat) = magnitude
    generalize (alsaReadyMs delayp.toUInt64 rate latencyMs).toInt = ms
    constructor
    · -- 2^64 nanoseconds are no whole number of milliseconds, so nothing was borrowed
      rintro ⟨-, hsame⟩
      have hborrow : ¬ctime.tvNsec + ms.tmod 1000 * 1000000 < 0 := by
        intro hborrow
        rw [if_pos hborrow] at hsame
        omega
      rw [if_neg hborrow] at hsame
      have hms : ms = latencyMs.toNat - (magnitude : Int) := by omega
      rw [hms] at hborrow
      exact Or.inr ⟨hms, not_lt.mp hborrow⟩
    · rintro (hnonneg | ⟨hms, hborrow⟩)
      · omega
      · rw [← hms] at hborrow
        rw [if_neg (not_lt.mpr hborrow)]
        exact ⟨hnormal, by omega⟩
  · refine ⟨fun _ => Or.inl hpos, fun _ => ⟨hnormal, ?_⟩⟩
    obtain ⟨frames, hframes⟩ := Int.eq_ofNat_of_zero_le hpos
    have hquotient : delayp.toInt * 1000 / rate.toNat < 2 ^ 20 := by
      have habs : delayp.toInt.natAbs = frames := by omega
      rw [habs] at hdelay
      rw [hframes]
      exact_mod_cast hdelay
    have hms := @alsaReadyMs_of_nonneg delayp rate latencyMs hrate hpos (by omega)
    have hsum : 0 ≤ delayp.toInt * 1000 / rate.toNat + latencyMs.toNat := by positivity
    rw [Int.tdiv_eq_ediv_of_nonneg (by positivity), ← hms]
    rw [← hms] at hsum
    exact (timeAddMs_spec hctime hsum).2

theorem tsAlsaReady_exact_buffered :
    (tsAlsaReady ⟨1000, 0⟩ (Player.delayFrames (some 480)) 48000 100).toNs =
      Timespec.toNs ⟨1000, 0⟩ + (((480 : Int64).toInt * 1000).tdiv (48000 : UInt32).toNat +
        (100 : UInt32).toNat) * 1000000 :=
  ((@tsAlsaReady_exact_iff ⟨1000, 0⟩ (by decide) 48000 100 (by decide) (by decide) 480 (by decide)).mpr
    (Or.inl (by decide))).2

/-- After an underrun of 480 frames at 48 kHz the device is taken to be ready more than three weeks later
than it is. -/
theorem tsAlsaReady_underrun :
    ¬∀ (ctime : Timespec) (rate latencyMs : UInt32) (delayp : Int64), ctime.Normalised → rate ≠ 0 →
      latencyMs.toNat < 2 ^ 31 - 2 ^ 21 → delayp.toInt.natAbs * 1000 / rate.toNat < 2 ^ 20 →
        (tsAlsaReady ctime (Player.delayFrames (some delayp)) rate latencyMs).toNs =
          ctime.toNs + ((delayp.toInt * 1000).tdiv rate.toNat + latencyMs.toNat) * 1000000 := by
  intro hall
  exact absurd (hall ⟨1000, 0⟩ 48000 0 (-480) (by decide) (by decide) (by decide) (by decide))
    (by decide +kernel)

section

variable {env : ClientEnv} {speed : SpeedAdjustment} {clock : ClientClock} {latencyMs : UInt32}
  {delayp : Option Int64} {s : Client} {fetched : Fetched}

/-- The loop stops where its condition fails. -/
theorem dropLate_stop {ready : Timespec} {p : PcmChunk} (rounds : Nat)
    (hstop : (timing ready s.alsaplayer.playing (intercomGetTimeNextAudiochunk s)).drops p = false) :
    dropLate ready (rounds + 1) p s =
      .ok (timing ready s.alsaplayer.playing (intercomGetTimeNextAudiochunk s), p, s) := by
  rw [dropLate]
  dsimp only
  rw [hstop]
  rfl

/-- The time at which the device is ready, as the call of `getchunk` in `alsaplayer_handle` computes it. -/
def handleReady (clock : ClientClock) (latencyMs : UInt32) (delayp : Option Int64) (s : Client) : Timespec :=
  tsAlsaReady clock.ctime (Player.delayFrames delayp) s.alsaplayer.rate latencyMs

/-- What the tests of that call say. -/
def handleTiming (clock : ClientClock) (latencyMs : UInt32) (delayp : Option Int64) (s : Client) : Timing :=
  timing (handleReady clock latencyMs delayp s) s.alsaplayer.playing (intercomGetTimeNextAudiochunk s)

/-- In `alsaplayer_handle` the chunk at `p` is empty, so the loop drops nothing. -/
theorem handleGetchunk_eq (hrun : Player.handleGetchunk env speed clock latencyMs delayp s = .ok fetched) :
    s.alsaplayer.rate ≠ 0 ∧
      (if s.alsaplayer.playing || (handleTiming clock latencyMs delayp s).attemptingStartAndOvershot ||
          (handleTiming clock latencyMs delayp s).isNear then
        playNext env speed clock (handleReady clock latencyMs delayp s)
          (handleTiming clock latencyMs delayp s).isNear (Player.blankChunk s.alsaplayer) s
      else pure ⟨getEmptychunk (Player.blankChunk s.alsaplayer)
        (UInt32.ofInt (sleepMs (handleTiming clock latencyMs delayp s).tdiff)), none, s⟩) = .ok fetched := by
  rw [Player.handleGetchunk, Player.getchunk] at hrun
  split_ifs at hrun with hrate
  refine ⟨hrate, ?_⟩
  have hstop : (handleTiming clock latencyMs delayp s).drops (Player.blankChunk s.alsaplayer) = false := by
    rw [Timing.drops, show chunkIsEmpty (Player.blankChunk s.alsaplayer) = true from rfl]
    exact Bool.and_false _
  have hloop : dropLate (handleReady clock latencyMs delayp s) 2 (Player.blankChunk s.alsaplayer) s =
      .ok (handleTiming clock latencyMs delayp s, Player.blankChunk s.alsaplayer, s) := dropLate_stop 1 hstop
  change (dropLate (handleReady clock latencyMs delayp s) 2 _ _ >>= _) = _ at hrun
  rw [hloop, except_ok_bind] at hrun
  exact hrun

/-! ### Silence before the next chunk -/

theorem intercomGetTimeNextAudiochunk_nsec (s : Client) : 0 ≤ (intercomGetTimeNextAudiochunk s).tvNsec := by
  unfold intercomGetTimeNextAudiochunk chunkGetPlayAt
  split
  · exact Int.natCast_nonneg _
  · exact le_rfl

/-- `sleep_ms` is no more than what is left until the next chunk. -/
theorem sleepMs_le {ready next : Timespec} (hready : ready.Normalised) (hnext : 0 ≤ next.tvNsec)
    (hlt : timespecCmp ready next < 0) :
    0 ≤ sleepMs (timeSub ready next) ∧ sleepMs (timeSub ready next) * 1000000 ≤ next.toNs - ready.toNs := by
  obtain ⟨hsign, hsec, hnsec, hdiff⟩ := timeSub_of_lt hready hnext hlt
  rw [← hdiff, sleepMs, if_neg (by rw [hsign]; decide)]
  unfold Timespec.toNs billion
  split_ifs with hzero
  · rw [hzero, Int.tdiv_eq_ediv_of_nonneg hnsec]
    omega
  · -- the difference is at least a second
    rw [show notEvenCloseMs.toInt = 30 from rfl]
    omega

/-- While nothing is played and the next chunk lies in the future, neither near nor overshot, `getchunk`
gives silence that has ended when the chunk is to be played. -/
theorem waitingSilence_fits (hctime : clock.ctime.Normalised) (hdelay : 0 ≤ (delayp.getD 0).toInt)
    (hfits : (delayp.getD 0).toInt * 1000 / s.alsaplayer.rate.toNat + latencyMs.toNat < 2 ^ 31)
    (hplaying : s.alsaplayer.playing = false)
    (hnear : timespecIsnear (handleReady clock latencyMs delayp s) (intercomGetTimeNextAudiochunk s) nearMs = 0)
    (hfuture : timespecCmp (handleReady clock latencyMs delayp s) (intercomGetTimeNextAudiochunk s) < 0)
    (hrun : Player.handleGetchunk env speed clock latencyMs delayp s = .ok fetched) :
    fetched.taken = none ∧
      ((clock.ctime.toNs +
          ((delayp.getD 0).toInt * 1000 / s.alsaplayer.rate.toNat + latencyMs.toNat) * 1000000 : Int) : ℚ) +
        playingNs fetched.chunk ≤ ((intercomGetTimeNextAudiochunk s).toNs : Int) := by
  obtain ⟨hrate, hresult⟩ := handleGetchunk_eq hrun
  have hms := alsaReadyMs_of_nonneg hrate hdelay hfits
  have hsum : 0 ≤ (delayp.getD 0).toInt * 1000 / s.alsaplayer.rate.toNat + latencyMs.toNat := by positivity
  rw [← hms] at hsum ⊢
  obtain ⟨hnormal, hready⟩ := timeAddMs_spec hctime hsum
  change (handleReady clock latencyMs delayp s).Normalised at hnormal
  change (handleReady clock latencyMs delayp s).toNs = _ at hready
  rw [← hready]
  have hwaits : (s.alsaplayer.playing || (handleTiming clock latencyMs delayp s).attemptingStartAndOvershot ||
      (handleTiming clock latencyMs delayp s).isNear) = false := by
    rw [handleTiming, timing, hplaying]
    simp only [hnear, not_le.mpr hfuture, ne_eq, not_true_eq_false, decide_false, Bool.and_false,
      Bool.or_false]
  rw [hwaits, if_neg Bool.false_ne_true] at hresult
  obtain rfl := Except.ok.inj hresult
  refine ⟨rfl, ?_⟩
  obtain ⟨hnonneg, hsleep⟩ := sleepMs_le hnormal (intercomGetTimeNextAudiochunk_nsec s) hfuture
  change _ + playingNs (getEmptychunk _ (UInt32.ofInt (sleepMs (timeSub _ _)))) ≤ _
  generalize sleepMs (timeSub (handleReady clock latencyMs delayp s) (intercomGetTimeNextAudiochunk s)) = sleep
    at hnonneg hsleep ⊢
  have hmod : ((UInt32.ofInt sleep).toNat : Int) ≤ sleep := by
    rw [uint32_ofInt_toNat]
    omega
  have hlength : (((UInt32.ofInt sleep).toNat : Int) : ℚ) ≤ sleep := Int.cast_le.mpr hmod
  have hleft : ((sleep * 1000000 : Int) : ℚ) ≤
      ((intercomGetTimeNextAudiochunk s).toNs - (handleReady clock latencyMs delayp s).toNs : Int) :=
    Int.cast_le.mpr hsleep
  push_cast at hlength hleft
  have hplays := @playingNs_getEmptychunk_le (Player.blankChunk s.alsaplayer) (UInt32.ofInt sleep)
  linarith

end

/-- A player of 48 kHz audio whose receive buffer holds a chunk that is to be played at the second 1000. -/
def stereoPlayer (playing : Bool) : Client :=
  { freshClient 0 false none with
    receivebuffer := some ((ReceiveBuffer.new 20 (by decide) (by decide)).enqueue
      ⟨{ stereoFormat with playAtTvSec := 1000, size := 4, data := [0, 0, 0, 0] }, 1⟩)
    alsaplayer := ⟨48000, 2, 2, true, playing, 0, none, false, 0, none, none⟩ }

/-- Libraries that do nothing: audio that is not encoded does not need them. -/
def stereoEnv : ClientEnv := ⟨⟨fun _ _ => 0, fun _ _ => (0, [])⟩, id, 1, 1⟩

def sameSpeed : SpeedAdjustment := fun chunk _ _ => (chunk.size, chunk.data)

theorem waitingSilence_second :
    ∃ fetched, Player.handleGetchunk stereoEnv sameSpeed ⟨⟨998, 0⟩, ⟨998, 0⟩, ⟨0, 0⟩⟩ 100 (some 480)
        (stereoPlayer false) = .ok fetched ∧ fetched.taken = none := by
  obtain ⟨fetched, hrun, -⟩ := except_map_ok (show (Player.handleGetchunk stereoEnv sameSpeed
    ⟨⟨998, 0⟩, ⟨998, 0⟩, ⟨0, 0⟩⟩ 100 (some 480) (stereoPlayer false)).map (·.chunk.size) = .ok 5760 by
      decide +kernel)
  exact ⟨fetched, hrun, (waitingSilence_fits (by decide) (by decide) (by decide +kernel) rfl
    (by decide +kernel) (by decide +kernel) hrun).1⟩

section

variable {env : ClientEnv} {speed : SpeedAdjustment} {clock : ClientClock} {latencyMs : UInt32}
  {delayp : Option Int64} {s : Client} {fetched : Fetched}

/-! ### Late chunks -/

/-- A chunk is late: it was to be played more than `NOT_EVEN_CLOSE_MS` before the device is ready. -/
def Late (ready : Timespec) (chunk : PcmChunk) : Prop :=
  (chunkGetPlayAt (some chunk)).toNs + notEvenCloseMs.toInt * 1000000 < ready.toNs

/-- The receive buffer after a chunk was taken. -/
theorem takeChunk_receivebuffer {s' : Client} (hrun : takeChunk env clock s = .ok s') :
    s'.receivebuffer = s.receivebuffer.map ReceiveBuffer.dequeue := by
  rw [takeChunk] at hrun
  split at hrun
  · rename_i after hnext
    obtain ⟨-, rfl⟩ := Prod.mk.inj hnext
    cases hrun
    rfl
  · rename_i chunk after hnext
    obtain ⟨-, rfl⟩ := Prod.mk.inj hnext
    dsimp only at hrun
    obtain ⟨tasks, -, hrun⟩ := except_bind_ok hrun
    obtain ⟨decoded, -, hrun⟩ := except_bind_ok hrun
    cases hrun
    rfl

/-- What is taken is the chunk that is played next. -/
theorem playNext_taken {ready : Timespec} {isNear : Bool} {p : PcmChunk}
    (hrun : playNext env speed clock ready isNear p s = .ok fetched) :
    fetched.taken = s.receivebuffer.bind ReceiveBuffer.peek ∧
      fetched.client.receivebuffer = s.receivebuffer.map ReceiveBuffer.dequeue := by
  rw [playNext] at hrun
  obtain ⟨client, htake, hrun⟩ := except_bind_ok hrun
  have hbuffer := takeChunk_receivebuffer htake
  split at hrun
  · rename_i hnone
    obtain rfl := Except.ok.inj hrun
    exact ⟨hnone.symm, hbuffer⟩
  · rename_i chunk hsome
    obtain ⟨decoded, -, hrun⟩ := except_bind_ok hrun
    obtain rfl := Except.ok.inj hrun
    exact ⟨hsome.symm, hbuffer⟩

theorem heldChunks_dequeue_subset {s s' : Client}
    (hbuffer : s'.receivebuffer = s.receivebuffer.map ReceiveBuffer.dequeue) :
    heldChunks s' ⊆ heldChunks s := by
  rw [heldChunks, heldChunks, hbuffer]
  cases s.receivebuffer with
  | none => exact List.Subset.refl _
  | some buffer =>
      change buffer.dequeue.contents ⊆ buffer.contents
      rcases Nat.eq_zero_or_pos buffer.queue.size with hzero | hpos
      · have hsame : buffer.dequeue.queue = buffer.queue := congrArg Prod.snd (PQueue.dequeue_of_empty hzero)
        rw [ReceiveBuffer.contents, hsame]
        exact List.Subset.refl _
      · exact fun stored hmem => (buffer.queue.dequeue_contents hpos).subset (List.mem_cons_of_mem _ hmem)

theorem heldChunks_eq_nil_of_peek (hnone : s.receivebuffer.bind ReceiveBuffer.peek = none) :
    heldChunks s = [] := by
  rw [heldChunks]
  cases hbuffer : s.receivebuffer with
  | none => rfl
  | some buffer =>
      rw [hbuffer] at hnone
      change buffer.queue.peek.map StoredChunk.chunk = none at hnone
      rw [Option.map_eq_none_iff] at hnone
      refine List.eq_nil_of_length_eq_zero ((ReceiveBuffer.contents_size buffer).trans ?_)
      by_contra hpos
      rw [ReceiveBuffer.peek_of_pos (Nat.pos_of_ne_zero hpos)] at hnone
      exact absurd hnone (Option.some_ne_none _)

/-- In `alsaplayer_handle` no late chunk is handed out while playing, and none is left in the receive buffer,
exactly when the chunk that is played next is not late: the loop that is to drop late chunks never does. -/
theorem lateDropped_iff (hplaying : s.alsaplayer.playing = true)
    (hordered : ∀ head ∈ s.receivebuffer.bind ReceiveBuffer.peek, ∀ stored ∈ heldChunks s,
      (chunkGetPlayAt (some head)).toNs ≤ (chunkGetPlayAt (some stored.chunk)).toNs)
    (hrun : Player.handleGetchunk env speed clock latencyMs delayp s = .ok fetched) :
    ((∀ chunk ∈ fetched.taken, ¬Late (handleReady clock latencyMs delayp s) chunk) ∧
      ∀ stored ∈ heldChunks fetched.client, ¬Late (handleReady clock latencyMs delayp s) stored.chunk) ↔
    ∀ head ∈ s.receivebuffer.bind ReceiveBuffer.peek, ¬Late (handleReady clock latencyMs delayp s) head := by
  obtain ⟨-, hresult⟩ := handleGetchunk_eq hrun
  rw [hplaying, Bool.true_or, Bool.true_or, if_pos rfl] at hresult
  obtain ⟨htaken, hbuffer⟩ := playNext_taken hresult
  rw [htaken]
  refine ⟨And.left, fun htimely => ⟨htimely, fun stored hmem hlate => ?_⟩⟩
  have hheld := heldChunks_dequeue_subset hbuffer hmem
  cases hpeek : s.receivebuffer.bind ReceiveBuffer.peek with
  | none => exact absurd hheld (by rw [heldChunks_eq_nil_of_peek hpeek]; exact List.not_mem_nil)
  | some head =>
      refine htimely head hpeek ?_
      exact (Int.add_le_add_right (hordered head hpeek stored hheld) _).trans_lt hlate

end

theorem stereoPlayer_ordered (playing : Bool) :
    ∀ head ∈ (stereoPlayer playing).receivebuffer.bind ReceiveBuffer.peek,
      ∀ stored ∈ heldChunks (stereoPlayer playing),
        (chunkGetPlayAt (some head)).toNs ≤ (chunkGetPlayAt (some stored.chunk)).toNs := by
  cases playing <;> decide +kernel

instance (ready : Timespec) (chunk : PcmChunk) : Decidable (Late ready chunk) :=
  inferInstanceAs (Decidable (_ < _))

theorem lateDropped_timely :
    ∃ fetched, Player.handleGetchunk stereoEnv sameSpeed ⟨⟨999, 990000000⟩, ⟨0, 0⟩, ⟨0, 0⟩⟩ 20 (some 0)
        (stereoPlayer true) = .ok fetched ∧
      ∀ stored ∈ heldChunks fetched.client, ¬Late ⟨1000, 10000000⟩ stored.chunk := by
  obtain ⟨fetched, hrun, -⟩ := except_map_ok (show (Player.handleGetchunk stereoEnv sameSpeed
    ⟨⟨999, 990000000⟩, ⟨0, 0⟩, ⟨0, 0⟩⟩ 20 (some 0) (stereoPlayer true)).map (·.chunk.size) = .ok 4 by
      decide +kernel)
  exact ⟨fetched, hrun, ((lateDropped_iff rfl (stereoPlayer_ordered true) hrun).mpr (by decide +kernel)).2⟩

/-- Two seconds after its time the chunk is still handed out. -/
theorem lateDropped_not :
    ¬∀ (env : ClientEnv) (speed : SpeedAdjustment) (clock : ClientClock) (latencyMs : UInt32)
      (delayp : Option Int64) (s : Client) (fetched : Fetched), s.alsaplayer.playing = true →
      (∀ head ∈ s.receivebuffer.bind ReceiveBuffer.peek, ∀ stored ∈ heldChunks s,
        (chunkGetPlayAt (some head)).toNs ≤ (chunkGetPlayAt (some stored.chunk)).toNs) →
      Player.handleGetchunk env speed clock latencyMs delayp s = .ok fetched →
        ∀ chunk ∈ fetched.taken, ¬Late (handleReady clock latencyMs delayp s) chunk := by
  intro hall
  obtain ⟨fetched, hrun, htaken⟩ := except_map_ok (show (Player.handleGetchunk stereoEnv sameSpeed
    ⟨⟨1002, 0⟩, ⟨0, 0⟩, ⟨0, 0⟩⟩ 0 (some 0) (stereoPlayer true)).map (·.taken) =
      .ok ((stereoPlayer true).receivebuffer.bind ReceiveBuffer.peek) by decide +kernel)
  have hnot := hall _ _ _ _ _ _ fetched rfl (stereoPlayer_ordered true) hrun
  rw [htaken] at hnot
  revert hnot
  decide +kernel

end Snapcastc
