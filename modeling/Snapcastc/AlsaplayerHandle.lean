import Snapcastc.Client

/-! Playing (`alsaplayer_handle` in `alsaplayer.c`): a chunk is written to the device, and what the device
does not take is kept as overflow and written first the next time. The result of `snd_pcm_writei` is held
in an `unsigned int`, so that no test sees a negative one. -/

namespace Snapcastc

def frameWidth (chunk : PcmChunk) : Nat := chunk.channels.toNat * chunk.frameSize.toNat

/-- `chunk.size / chunk.channels / chunk.frame_size`. -/
def frameCount (chunk : PcmChunk) : Nat := chunk.size.toNat / chunk.channels.toNat / chunk.frameSize.toNat

def framesOf (chunk : PcmChunk) : List (List UInt8) :=
  (List.range (frameCount chunk)).map fun k =>
    (chunk.data.drop (k * frameWidth chunk)).take (frameWidth chunk)

def pcmchunkShaveoff (chunk : PcmChunk) (frames : Nat) : Except Fault PcmChunk :=
  let removebytes := chunk.channels.toNat * chunk.frameSize.toNat * frames
  if chunk.samples = 0 then throw .divisionByZero
  else
    let playAt := timeAddMs (chunkGetPlayAt (some chunk)) (.ofNat (frames * 1000 / chunk.samples.toNat))
    pure { chunk with
      data := (chunk.data.drop removebytes).take (chunk.size.toNat - removebytes)
      size := chunk.size - UInt16.ofNat removebytes
      playAtTvSec := UInt32.ofInt playAt.tvSec
      playAtTvNsec := UInt32.ofInt playAt.tvNsec }

def epipe : Int := 32

/-- What `snd_pcm_writei` returns for a number of frames, at each of the three places it is called from. -/
structure DeviceResults where
  first : Nat → Int
  afterPrepare : Nat → Int
  afterRecover : Nat → Int

/-- `snd_pcm_writei` takes at most the frames it is given, or returns an error that is an `int`. -/
structure DeviceResults.Valid (device : DeviceResults) : Prop where
  first : ∀ frames : Nat, -2 ^ 31 ≤ device.first frames ∧ device.first frames ≤ frames
  afterPrepare : ∀ frames : Nat, -2 ^ 31 ≤ device.afterPrepare frames ∧ device.afterPrepare frames ≤ frames

/-- The writes of one call: `pcm` afterwards, and how many frames were taken. -/
def writeFrames (device : DeviceResults) (frames : Nat) : UInt32 × Nat :=
  let pcm := UInt32.ofInt (device.first frames)
  let taken := (device.first frames).toNat
  let (pcm, taken) :=
    if pcm = UInt32.ofInt (-epipe) then
      (UInt32.ofInt (device.afterPrepare frames), taken + (device.afterPrepare frames).toNat)
    else (pcm, taken)
  if pcm < 0 then (UInt32.ofInt (device.afterRecover frames), taken + (device.afterRecover frames).toNat)
  else (pcm, taken)

/-- `alsaplayer_handle`, where `delivered` is the chunk that `getchunk` gives when it is called: the context
and the frames the device has taken. -/
def alsaplayerHandle (ctx : AlsaplayerCtx) (delivered : PcmChunk) (device : DeviceResults) :
    Except Fault (AlsaplayerCtx × List (List UInt8)) :=
  let chunk := ctx.overflow.getD delivered
  if chunk.channels = 0 ∨ chunk.frameSize = 0 ∨ chunk.size = 0 then pure (ctx, [])
  else
    let (pcm, taken) := writeFrames device (frameCount chunk)
    let played := (framesOf chunk).take taken
    if pcm.toNat < frameCount chunk then do
      let overflow ← pcmchunkShaveoff chunk pcm.toNat
      pure ({ ctx with overflow := some overflow }, played)
    else if pcm.toNat = frameCount chunk then pure ({ ctx with overflow := none }, played)
    else pure (ctx, played)

/-- The player, with the frames of the chunks it has taken from `getchunk` and the frames the device has
taken so far, both of which the program does not keep. -/
structure Playback where
  ctx : AlsaplayerCtx
  fetched : List (List UInt8)
  played : List (List UInt8)

/-- A call of `alsaplayer_handle`: what `getchunk` gives if it is called, and what the device does. -/
structure PlayerCall where
  delivered : PcmChunk
  device : DeviceResults

def Playback.step (s : Playback) (call : PlayerCall) : Except Fault Playback := do
  let (ctx, played) ← alsaplayerHandle s.ctx call.delivered call.device
  pure ⟨ctx, s.fetched ++ (if s.ctx.overflow.isNone then framesOf call.delivered else []), s.played ++ played⟩

def Playback.run : Playback → List PlayerCall → Except Fault Playback
  | s, [] => pure s
  | s, call :: calls => do
      let s ← s.step call
      s.run calls

/-- The content of the overflow chunk. -/
def Playback.overflow (s : Playback) : List (List UInt8) := (s.ctx.overflow.map framesOf).getD []

/-- No frame is lost, repeated or reordered. -/
def Playback.Gapless (s : Playback) : Prop := s.played ++ s.overflow = s.fetched

structure WholeFrames (chunk : PcmChunk) : Prop where
  width_dvd : frameWidth chunk ∣ chunk.size.toNat
  length : chunk.data.length = chunk.size.toNat

/-- What `getchunk` and the device may do in a call. -/
structure PlayerCall.Valid (call : PlayerCall) : Prop where
  delivered : WholeFrames call.delivered
  device : call.device.Valid

/-! ### Splitting a chunk -/

section

variable {chunk : PcmChunk}

theorem frameCount_eq (chunk : PcmChunk) : frameCount chunk = chunk.size.toNat / frameWidth chunk :=
  Nat.div_div_eq_div_mul _ _ _

theorem frameCount_le (chunk : PcmChunk) : frameCount chunk < 2 ^ 16 := by
  rw [frameCount_eq]
  exact (Nat.div_le_self _ _).trans_lt chunk.size.toNat_lt

theorem framesOf_length (chunk : PcmChunk) : (framesOf chunk).length = frameCount chunk := by
  rw [framesOf, List.length_map, List.length_range]

/-- A chunk of whole frames without one has no bytes. -/
theorem WholeFrames.frames_pos_iff (hwhole : WholeFrames chunk) :
    0 < frameCount chunk ↔ ¬(chunk.channels = 0 ∨ chunk.frameSize = 0 ∨ chunk.size = 0) := by
  obtain ⟨k, hk⟩ := hwhole.width_dvd
  rw [frameCount_eq, hk, ← UInt8.toNat_inj, ← UInt8.toNat_inj, ← UInt16.toNat_inj, hk]
  change 0 < frameWidth chunk * k / frameWidth chunk ↔
    ¬(chunk.channels.toNat = 0 ∨ chunk.frameSize.toNat = 0 ∨ frameWidth chunk * k = 0)
  have hwidth : frameWidth chunk = 0 ↔ chunk.channels.toNat = 0 ∨ chunk.frameSize.toNat = 0 := Nat.mul_eq_zero
  rw [← or_assoc, ← hwidth, Nat.mul_eq_zero]
  rcases Nat.eq_zero_or_pos (frameWidth chunk) with hzero | hpos
  · rw [hzero]
    simp
  · rw [Nat.mul_div_cancel_left k hpos]
    omega

/-- What is left of a chunk after its first frames were shaved off. -/
theorem WholeFrames.shaveoff (hwhole : WholeFrames chunk) {frames : Nat} (hle : frames ≤ frameCount chunk)
    {rest : PcmChunk} (hrun : pcmchunkShaveoff chunk frames = .ok rest) :
    WholeFrames rest ∧ framesOf rest = (framesOf chunk).drop frames := by
  obtain ⟨hdvd, hlength⟩ := hwhole
  have hremoved : chunk.channels.toNat * chunk.frameSize.toNat * frames ≤ chunk.size.toNat := by
    calc frameWidth chunk * frames ≤ frameWidth chunk * frameCount chunk := Nat.mul_le_mul_left _ hle
      _ ≤ chunk.size.toNat := by
        rw [frameCount_eq]
        exact Nat.mul_div_le _ _
  rw [pcmchunkShaveoff] at hrun
  dsimp only at hrun
  split_ifs at hrun
  obtain rfl := Except.ok.inj hrun
  have hsize : (chunk.size - UInt16.ofNat (chunk.channels.toNat * chunk.frameSize.toNat * frames)).toNat =
      chunk.size.toNat - frameWidth chunk * frames := by
    have hlt := chunk.size.toNat_lt
    have hsmall : (UInt16.ofNat (chunk.channels.toNat * chunk.frameSize.toNat * frames)).toNat =
        chunk.channels.toNat * chunk.frameSize.toNat * frames := by
      rw [UInt16.toNat_ofNat', Nat.mod_eq_of_lt (hremoved.trans_lt hlt)]
    rw [UInt16.toNat_sub_of_le _ _ (by rw [UInt16.le_iff_toNat_le, hsmall]; exact hremoved), hsmall]
    rfl
  have hdata : (chunk.data.drop (frameWidth chunk * frames)).take
      (chunk.size.toNat - frameWidth chunk * frames) = chunk.data.drop (frameWidth chunk * frames) := by
    refine List.take_of_length_le ?_
    rw [List.length_drop, hlength]
  have hwidth : ∀ size data sec nsec, frameWidth { chunk with
      size, data, playAtTvSec := sec, playAtTvNsec := nsec } = frameWidth chunk := fun _ _ _ _ => rfl
  refine ⟨⟨?_, ?_⟩, ?_⟩
  · rw [hwidth, hsize]
    exact Nat.dvd_sub hdvd (Nat.dvd_mul_right _ _)
  · change List.length (List.take _ (List.drop (frameWidth chunk * frames) _)) = UInt16.toNat _
    rw [hsize]
    change List.length (List.take (chunk.size.toNat - frameWidth chunk * frames) _) = _
    rw [hdata, List.length_drop, hlength]
  · apply List.ext_getElem
    · rw [framesOf_length, List.length_drop, framesOf_length, frameCount_eq, frameCount_eq, hwidth]
      rw [hsize, Nat.sub_mul_div]
    · intro k hk hk'
      rw [List.getElem_drop]
      simp only [framesOf, List.getElem_map, List.getElem_range, hwidth]
      change (List.drop _ (List.take _ (List.drop (frameWidth chunk * frames) _))).take _ = _
      change (List.drop _ (List.take (chunk.size.toNat - frameWidth chunk * frames) _)).take _ = _
      rw [hdata, List.drop_drop, Nat.add_mul, Nat.mul_comm (frameWidth chunk) frames]

end

/-! ### One call -/

def DeviceResults.last (device : DeviceResults) (frames : Nat) : Int :=
  if device.first frames = -epipe then device.afterPrepare frames else device.first frames

/-- A number of frames is seen as it is. Any other result is seen as a number greater than every number of
frames. -/
theorem DeviceResults.Valid.writeFrames {device : DeviceResults} (hvalid : device.Valid) {frames : Nat}
    (hframes : frames < 2 ^ 16) :
    device.last frames ≤ frames ∧ (writeFrames device frames).2 = (device.last frames).toNat ∧
      if 0 ≤ device.last frames then
        ((Snapcastc.writeFrames device frames).1.toNat : Int) = device.last frames
      else frames < (Snapcastc.writeFrames device frames).1.toNat := by
  obtain ⟨hmin, hmax⟩ := hvalid.first frames
  obtain ⟨hmin', hmax'⟩ := hvalid.afterPrepare frames
  have hepipe : epipe = 32 := rfl
  have hneg : ∀ pcm : UInt32, ¬pcm < 0 := fun pcm => UInt32.not_lt_zero
  have hequal : UInt32.ofInt (device.first frames) = UInt32.ofInt (-epipe) ↔
      device.first frames = -epipe := by
    rw [← UInt32.toNat_inj]
    have := uint32_ofInt_toNat (device.first frames)
    have := uint32_ofInt_toNat (-epipe)
    omega
  unfold DeviceResults.last Snapcastc.writeFrames
  simp only [hequal, hneg, if_false]
  by_cases hdrained : device.first frames = -epipe
  · have hseen := uint32_ofInt_toNat (device.afterPrepare frames)
    simp only [hdrained, if_true]
    refine ⟨hmax', by omega, ?_⟩
    split_ifs <;> omega
  · have hseen := uint32_ofInt_toNat (device.first frames)
    simp only [hdrained, if_false]
    refine ⟨hmax, trivial, ?_⟩
    split_ifs <;> omega

/-- How a call ends that is about to write a chunk, given the result of the last write. -/
inductive HandledChunk (ctx : AlsaplayerCtx) (chunk : PcmChunk) (result : Int) :
    Except Fault (AlsaplayerCtx × List (List UInt8)) → Prop
  | nothing : frameCount chunk = 0 → HandledChunk ctx chunk result (.ok (ctx, []))
  | failed : 0 < frameCount chunk → result < 0 → HandledChunk ctx chunk result (.ok (ctx, []))
  | crashed : 0 < frameCount chunk → 0 ≤ result → result < frameCount chunk → chunk.samples = 0 →
      HandledChunk ctx chunk result (.error .divisionByZero)
  | split (rest : PcmChunk) : 0 ≤ result → result < frameCount chunk → chunk.samples ≠ 0 →
      WholeFrames rest → framesOf rest = (framesOf chunk).drop result.toNat →
      HandledChunk ctx chunk result
        (.ok ({ ctx with overflow := some rest }, (framesOf chunk).take result.toNat))
  | finished : 0 < frameCount chunk → result = frameCount chunk →
      HandledChunk ctx chunk result (.ok ({ ctx with overflow := none }, framesOf chunk))

theorem alsaplayerHandle_spec (ctx : AlsaplayerCtx) {delivered : PcmChunk} {device : DeviceResults}
    (hwhole : WholeFrames (ctx.overflow.getD delivered)) (hdevice : device.Valid) :
    HandledChunk ctx (ctx.overflow.getD delivered) (device.last (frameCount (ctx.overflow.getD delivered)))
      (alsaplayerHandle ctx delivered device) := by
  rw [alsaplayerHandle]
  dsimp only
  generalize ctx.overflow.getD delivered = chunk at hwhole ⊢
  obtain ⟨hmax, htaken, hpcm⟩ := hdevice.writeFrames (frameCount_le chunk)
  by_cases hzero : chunk.channels = 0 ∨ chunk.frameSize = 0 ∨ chunk.size = 0
  · rw [if_pos hzero]
    have hnone := mt hwhole.frames_pos_iff.mp (not_not.mpr hzero)
    exact .nothing (by omega)
  · have hpos := hwhole.frames_pos_iff.mpr hzero
    rw [if_neg hzero, htaken]
    rcases lt_or_ge (device.last (frameCount chunk)) 0 with hneg | hnonneg
    · rw [if_neg (not_le.mpr hneg)] at hpcm
      rw [if_neg (by omega), if_neg (by omega), Int.toNat_of_nonpos hneg.le, List.take_zero]
      exact .failed hpos hneg
    · rw [if_pos hnonneg] at hpcm
      rcases lt_or_eq_of_le hmax with hlt | heq
      · rw [if_pos (by omega)]
        have hframes : (writeFrames device (frameCount chunk)).1.toNat =
            (device.last (frameCount chunk)).toNat := by omega
        rw [hframes]
        by_cases hsamples : chunk.samples = 0
        · have hcrash : pcmchunkShaveoff chunk (device.last (frameCount chunk)).toNat =
              .error .divisionByZero := by
            rw [pcmchunkShaveoff, if_pos hsamples]
            rfl
          rw [hcrash]
          exact .crashed hpos hnonneg hlt hsamples
        · obtain ⟨rest, hrest⟩ : ∃ rest, pcmchunkShaveoff chunk
              (device.last (frameCount chunk)).toNat = .ok rest := by
            rw [pcmchunkShaveoff, if_neg hsamples]
            exact ⟨_, rfl⟩
          obtain ⟨hwhole', hframes'⟩ := hwhole.shaveoff (by omega) hrest
          rw [hrest]
          exact .split rest hnonneg hlt hsamples hwhole' hframes'
      · rw [if_neg (by omega), if_pos (by omega)]
        have hall : (framesOf chunk).take (device.last (frameCount chunk)).toNat = framesOf chunk := by
          refine List.take_of_length_le ?_
          rw [framesOf_length]
          omega
        rw [hall]
        exact .finished hpos heq

/-! ### Sequences of calls -/

namespace Playback

variable {s s' : Playback} {call : PlayerCall}

def chunk (s : Playback) (call : PlayerCall) : PcmChunk := s.ctx.overflow.getD call.delivered

/-- A chunk that was just fetched is not met by an error, and a chunk that is split has a rate. -/
def Accepts (s : Playback) (call : PlayerCall) : Prop :=
  0 < frameCount (s.chunk call) →
    (s.ctx.overflow = none → 0 ≤ call.device.last (frameCount (s.chunk call))) ∧
    (0 ≤ call.device.last (frameCount (s.chunk call)) →
      call.device.last (frameCount (s.chunk call)) < frameCount (s.chunk call) →
        (s.chunk call).samples ≠ 0)

/-- The overflow chunk has whole frames, and at least one. -/
def OverflowWhole (s : Playback) : Prop :=
  ∀ chunk, s.ctx.overflow = some chunk → WholeFrames chunk ∧ 0 < frameCount chunk

theorem OverflowWhole.chunk (hinv : s.OverflowWhole) (hvalid : call.Valid) : WholeFrames (s.chunk call) := by
  rw [Playback.chunk]
  cases hoverflow : s.ctx.overflow with
  | none => exact hvalid.delivered
  | some chunk => exact (hinv chunk hoverflow).1

/-- What is about to be written is what is still to be played of the frames that were fetched. -/
theorem Gapless.fetch (hgapless : s.Gapless) (call : PlayerCall) :
    s.played ++ framesOf (s.chunk call) =
      s.fetched ++ if s.ctx.overflow.isNone then framesOf call.delivered else [] := by
  rw [Gapless, overflow] at hgapless
  rw [Playback.chunk, ← hgapless]
  cases s.ctx.overflow with
  | none => simp
  | some chunk => simp

/-- The player after a call whose writes are known. -/
def after (s : Playback) (call : PlayerCall) (written : AlsaplayerCtx × List (List UInt8)) : Playback :=
  ⟨written.1, s.fetched ++ (if s.ctx.overflow.isNone then framesOf call.delivered else []),
    s.played ++ written.2⟩

theorem step_eq (s : Playback) (call : PlayerCall) :
    s.step call = (alsaplayerHandle s.ctx call.delivered call.device).map (s.after call) := by
  rw [step]
  cases alsaplayerHandle s.ctx call.delivered call.device with
  | error fault => rfl
  | ok written => rfl

/-- A call after which the frames that were to be written are played or in the overflow chunk keeps them in
order, and no other. -/
theorem after_gapless_iff (hgapless : s.Gapless) (call : PlayerCall)
    (written : AlsaplayerCtx × List (List UInt8)) :
    (s.after call written).Gapless ↔
      written.2 ++ (written.1.overflow.map framesOf).getD [] = framesOf (s.chunk call) := by
  rw [Gapless]
  change s.played ++ written.2 ++ (written.1.overflow.map framesOf).getD [] = s.fetched ++ _ ↔ _
  rw [← hgapless.fetch call, List.append_assoc, List.append_cancel_left_eq]

/-- One call: it keeps the frames in order exactly when the device accepts what it is given. -/
theorem step_gapless_iff (hinv : s.OverflowWhole) (hgapless : s.Gapless) (hvalid : call.Valid) :
    (∃ s', s.step call = .ok s' ∧ s'.Gapless) ↔ s.Accepts call := by
  have hspec := alsaplayerHandle_spec s.ctx (hinv.chunk hvalid) hvalid.device
  rw [step_eq]
  change HandledChunk s.ctx (s.chunk call) (call.device.last (frameCount (s.chunk call))) _ at hspec
  rw [Accepts]
  generalize hresult : call.device.last (frameCount (s.chunk call)) = result at hspec ⊢
  -- a call that leaves everything as it is must not have fetched frames
  have hsame : (s.after call (s.ctx, [])).Gapless ↔
      (s.ctx.overflow = none → frameCount (s.chunk call) = 0) := by
    rw [after_gapless_iff hgapless, List.nil_append]
    cases hoverflow : s.ctx.overflow with
    | none =>
        rw [Option.map_none, Option.getD_none, eq_comm, ← List.length_eq_zero_iff, framesOf_length]
        exact ⟨fun h _ => h, fun h => h rfl⟩
    | some chunk =>
        rw [Option.map_some, Option.getD_some, Playback.chunk, hoverflow]
        exact iff_of_true rfl fun h => nomatch h
  generalize alsaplayerHandle s.ctx call.delivered call.device = outcome at hspec
  cases hspec with
  | nothing hzero =>
      refine iff_of_true ⟨_, rfl, hsame.mpr fun _ => hzero⟩ fun hpos => ?_
      omega
  | failed hpos hneg =>
      constructor
      · rintro ⟨s', hrun, hthen⟩ -
        obtain rfl := Except.ok.inj hrun
        refine ⟨fun hnone => ?_, fun hnonneg => absurd hneg (not_lt.mpr hnonneg)⟩
        have := hsame.mp hthen hnone
        omega
      · intro haccepts
        refine ⟨_, rfl, hsame.mpr fun hnone => ?_⟩
        have := (haccepts hpos).1 hnone
        omega
  | crashed hpos hnonneg hlt hsamples =>
      refine iff_of_false ?_ fun haccepts => (haccepts hpos).2 hnonneg hlt hsamples
      rintro ⟨s', hrun, -⟩
      cases hrun
  | split rest hnonneg hlt hsamples _ hframes =>
      refine iff_of_true ⟨_, rfl, ?_⟩ fun _ => ⟨fun _ => hnonneg, fun _ _ => hsamples⟩
      rw [after_gapless_iff hgapless]
      change _ ++ framesOf rest = _
      rw [hframes, List.take_append_drop]
  | finished hpos heq =>
      refine iff_of_true ⟨_, rfl, ?_⟩ fun _ => ⟨fun _ => by omega, fun _ hlt => by omega⟩
      rw [after_gapless_iff hgapless]
      exact List.append_nil _

/-- The overflow chunk stays whole. -/
theorem step_overflowWhole (hinv : s.OverflowWhole) (hvalid : call.Valid) (hrun : s.step call = .ok s') :
    s'.OverflowWhole := by
  have hspec := alsaplayerHandle_spec s.ctx (hinv.chunk hvalid) hvalid.device
  rw [step_eq] at hrun
  obtain ⟨written, hwritten, rfl⟩ := except_map_ok hrun
  rw [hwritten] at hspec
  intro chunk hchunk
  cases hspec with
  | nothing _ => exact hinv chunk hchunk
  | failed _ _ => exact hinv chunk hchunk
  | split rest hnonneg hlt _ hwhole hframes =>
      obtain rfl := Option.some.inj hchunk
      refine ⟨hwhole, ?_⟩
      have hlength := congrArg List.length hframes
      rw [framesOf_length, List.length_drop, framesOf_length] at hlength
      omega
  | finished _ _ => cases hchunk

theorem run_append (s : Playback) (calls more : List PlayerCall) :
    s.run (calls ++ more) = (s.run calls).bind fun s => s.run more := by
  induction calls generalizing s with
  | nil => rfl
  | cons call calls ih =>
      rw [List.cons_append, run, run]
      cases s.step call with
      | error fault => rfl
      | ok s' => exact ih s'

theorem run_snoc {calls : List PlayerCall} (hrun : s.run calls = .ok s') (call : PlayerCall) :
    s.run (calls ++ [call]) = s'.step call := by
  rw [run_append, hrun]
  change ((s'.step call).bind fun s => .ok s) = _
  cases s'.step call with
  | error fault => rfl
  | ok s'' => rfl

theorem run_overflowWhole {calls : List PlayerCall} (hinv : s.OverflowWhole)
    (hvalid : ∀ call ∈ calls, call.Valid) (hrun : s.run calls = .ok s') : s'.OverflowWhole := by
  induction calls generalizing s with
  | nil =>
      obtain rfl := Except.ok.inj hrun
      exact hinv
  | cons call calls ih =>
      obtain ⟨s₁, hstep, hrun⟩ := except_bind_ok hrun
      rw [List.forall_mem_cons] at hvalid
      exact ih (step_overflowWhole hinv hvalid.1 hstep) hvalid.2 hrun

/-- The player before the first call, with a context that has no overflow. -/
def start (ctx : AlsaplayerCtx) : Playback := ⟨{ ctx with overflow := none }, [], []⟩

/-- No call of a sequence crashes, loses, repeats or reorders a frame, exactly when the device accepts what
each of them gives it. -/
theorem gapless_iff (ctx : AlsaplayerCtx) (calls : List PlayerCall) (hvalid : ∀ call ∈ calls, call.Valid) :
    (∀ done, done <+: calls → ∃ s, (start ctx).run done = .ok s ∧ s.Gapless) ↔
      ∀ done call, done ++ [call] <+: calls → ∀ s, (start ctx).run done = .ok s → s.Accepts call := by
  have hstart : (start ctx).OverflowWhole := fun _ hchunk => nomatch hchunk
  have hmem : ∀ done, done <+: calls → ∀ call ∈ done, call.Valid := fun done hdone call hcall =>
    hvalid call (hdone.mem hcall)
  constructor
  · intro hall done call hnext s hrun
    have hdone := (List.prefix_append done [call]).trans hnext
    have hinv := run_overflowWhole hstart (hmem done hdone) hrun
    have hcall := hmem _ hnext call (List.mem_append_right _ (List.mem_singleton_self call))
    obtain ⟨s₁, hrun₁, hgapless⟩ := hall done hdone
    obtain rfl := Except.ok.inj (hrun.symm.trans hrun₁)
    obtain ⟨s', hrun', hgapless'⟩ := hall _ hnext
    rw [run_snoc hrun] at hrun'
    exact (step_gapless_iff hinv hgapless hcall).mp ⟨s', hrun', hgapless'⟩
  · intro haccepts done
    induction done using List.reverseRecOn with
    | nil => exact fun _ => ⟨start ctx, rfl, rfl⟩
    | append_singleton done call ih =>
        intro hnext
        have hdone := (List.prefix_append done [call]).trans hnext
        have hcall := hmem _ hnext call (List.mem_append_right _ (List.mem_singleton_self call))
        obtain ⟨s, hrun, hgapless⟩ := ih hdone
        have hinv := run_overflowWhole hstart (hmem done hdone) hrun
        rw [run_snoc hrun]
        exact (step_gapless_iff hinv hgapless hcall).mpr (haccepts done call hnext s hrun)

/-- Two frames in stereo, 16 bits a sample. -/
def twoFrames : PcmChunk := ⟨5, 0, 48000, 2, 2, 8, codecPcm, [1, 2, 3, 4, 5, 6, 7, 8]⟩

/-- A call that fetches the two frames; the device returns an error, or takes so many frames if it is given
as many. -/
def playTwo (result : Int) : PlayerCall :=
  ⟨twoFrames, fun frames => min result frames, fun frames => min result frames,
    fun frames => min result frames⟩

theorem playTwo_valid {result : Int} (hmin : -2 ^ 31 ≤ result) : (playTwo result).Valid := by
  have hresult : ∀ frames : Nat, -2 ^ 31 ≤ min result frames ∧ min result frames ≤ frames := fun frames =>
    ⟨by omega, min_le_right _ _⟩
  have hwidth : frameWidth twoFrames ∣ twoFrames.size.toNat := by decide
  exact ⟨⟨hwidth, rfl⟩, hresult, hresult⟩

/-- The device of a player that has not been opened. -/
def idlePlayer : AlsaplayerCtx := ⟨48000, 2, 2, true, false, 0, none, true, 100, none, none⟩

/-- When the device takes one frame, the other one is kept. -/
theorem gapless_split : ∃ s, (start idlePlayer).run [playTwo 1] = .ok s ∧ s.Gapless := by
  refine (gapless_iff idlePlayer [playTwo 1] fun call hcall => ?_).mpr
    (fun done call hnext s hrun _ => ?_) _ (List.prefix_refl _)
  · rw [List.mem_singleton.mp hcall]
    exact playTwo_valid (by decide)
  · have hdone : done = [] := by
      have := hnext.length_le
      rw [List.length_append, List.length_singleton, List.length_singleton] at this
      exact List.length_eq_zero_iff.mp (by omega)
    subst hdone
    obtain rfl : call = playTwo 1 := List.head_eq_of_cons_eq (hnext.eq_of_length rfl)
    obtain rfl := Except.ok.inj hrun
    exact ⟨fun _ => by decide, fun _ _ => by decide⟩

/-- When the device has no room at all, `EAGAIN`, both frames are lost. -/
theorem gapless_fails :
    (playTwo (-11)).Valid ∧
      ¬∀ done, done <+: [playTwo (-11)] → ∃ s, (start idlePlayer).run done = .ok s ∧ s.Gapless := by
  refine ⟨playTwo_valid (by decide), fun hall => ?_⟩
  obtain ⟨s, hrun, hgapless⟩ := hall _ (List.prefix_refl _)
  have hview : ((start idlePlayer).run [playTwo (-11)]).map (fun s => (s.played ++ s.overflow, s.fetched)) =
      .ok ([], [[1, 2, 3, 4], [5, 6, 7, 8]]) := by decide +kernel
  rw [hrun] at hview
  obtain ⟨hkept, hfetched⟩ := Prod.mk.inj (Except.ok.inj hview)
  rw [Gapless, hkept, hfetched] at hgapless
  cases hgapless

end Playback

end Snapcastc
