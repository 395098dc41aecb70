import Snapcastc.Client
import Snapcastc.ServerRegistry

/-! The volume of a client, as it sets and reports it (`alsaplayer.c`) and as the server compares it with
what it has recorded (`clientmgr.c`). Setting the volume truncates, reporting it rounds. -/

namespace Snapcastc

/-- `round`: halves go away from zero. -/
def cRound (x : ℚ) : Int := if 0 ≤ x then ⌊x + 1 / 2⌋ else ⌈x - 1 / 2⌉

/-- `obtain_volume`: the volume and the context afterwards. The level of the software volume is read
before `mixer_init` can change it. -/
def obtainVolume (ctx : AlsaplayerCtx) : UInt8 × AlsaplayerCtx :=
  if ctx.isSoftvol then (ctx.softvolLevel, ctx)
  else
    let opened := mixerInit ctx
    match opened.mixer with
    | some mixer => (UInt8.ofInt (cRound ((mixer.volume.toInt : ℚ) * 100 / mixer.max.toInt)), opened)
    | none => (ctx.softvolLevel, opened)

/-- A fraction is rounded to the next whole number below one half more. -/
theorem cRound_div {a m : Int} (ha : 0 ≤ a) (hm : 0 < m) :
    cRound ((a : ℚ) / m) = (2 * a + m) / (2 * m) := by
  obtain ⟨d, rfl⟩ := Int.eq_ofNat_of_zero_le hm.le
  have hpos : (0 : ℚ) < (d : Int) := Int.cast_pos.mpr hm
  have hnonneg : (0 : ℚ) ≤ (a : ℚ) / (d : Int) := div_nonneg (Int.cast_nonneg ha) hpos.le
  have hsum : (a : ℚ) / (d : Int) + 1 / 2 = ((2 * a + d : Int) : ℚ) / ((2 * d : Nat) : ℚ) := by
    push_cast at hpos ⊢
    field_simp
  rw [cRound, if_pos hnonneg, hsum, Rat.floor_intCast_div_natCast]
  push_cast
  rfl

/-- What is reported of a volume that was set: the rounding makes up for the truncation, less what that
has cut off. -/
theorem reported_eq {v m : Int} (hv : 0 ≤ v) (hm : 0 < m) :
    0 ≤ v + (m - 2 * (v * m % 100)) / (2 * m) ∧
      cRound ((((v * m).tdiv 100 : Int) : ℚ) * 100 / m) = v + (m - 2 * (v * m % 100)) / (2 * m) := by
  have hprod : 0 ≤ v * m := mul_nonneg hv hm.le
  have hset : (((v * m).tdiv 100 : Int) : ℚ) * 100 = ((v * m - v * m % 100 : Int) : ℚ) := by
    have hcut : (v * m).tdiv 100 * 100 = v * m - v * m % 100 := by
      rw [Int.tdiv_eq_ediv_of_nonneg hprod]
      omega
    rw [← hcut]
    push_cast
    rfl
  have hround : (2 * (v * m - v * m % 100) + m) / (2 * m) = v + (m - 2 * (v * m % 100)) / (2 * m) := by
    calc (2 * (v * m - v * m % 100) + m) / (2 * m)
        = (m - 2 * (v * m % 100) + v * (2 * m)) / (2 * m) := by ring_nf
      _ = (m - 2 * (v * m % 100)) / (2 * m) + v := Int.add_mul_ediv_right _ _ (by omega)
      _ = v + (m - 2 * (v * m % 100)) / (2 * m) := add_comm _ _
  have hcut : 0 ≤ v * m - v * m % 100 := by omega
  refine ⟨?_, ?_⟩
  · rw [← hround]
    exact Int.ediv_nonneg (by omega) (by omega)
  · rw [hset, cRound_div hcut hm, hround]

/-- At most one is lost exactly when twice what was cut off is no more than three times the range. -/
theorem loss_bounds {m r : Int} (hm : 0 < m) (hr : 0 ≤ r) :
    (m - 2 * r) / (2 * m) ≤ 0 ∧ (-1 ≤ (m - 2 * r) / (2 * m) ↔ 2 * r ≤ 3 * m) := by
  constructor
  · have hlt : (m - 2 * r) / (2 * m) < 1 := Int.ediv_lt_of_lt_mul (by omega) (by omega)
    omega
  · rw [Int.le_ediv_iff_mul_le (by omega)]
    constructor <;> intro h <;> omega

theorem isRoughly_iff (a b : UInt8) :
    isRoughly a b = true ↔ ((a.toNat : Int) - b.toNat).natAbs < 2 := by
  rw [isRoughly, Bool.or_eq_true, decide_eq_true_iff, or_iff_right_iff_imp]
  intro heq
  rw [eq_of_beq heq, sub_self]
  decide

/-! ### Agreement -/

/-- A product that fits in a `long` is computed exactly. -/
theorem scaled_toInt {volume : UInt8} {max : Int64} (hmax : 1 ≤ max.toInt)
    (hfits : volume.toNat * max.toInt < 2 ^ 63) :
    (.ofNat volume.toNat * max / 100 : Int64).toInt = (volume.toNat * max.toInt).tdiv 100 := by
  have hvolume : (Int64.ofNat volume.toNat).toInt = volume.toNat :=
    Int64.toInt_ofNat_of_lt (volume.toNat_lt.trans (by norm_num))
  have hnonneg : 0 ≤ volume.toNat * max.toInt := mul_nonneg (Int.natCast_nonneg _) (by omega)
  have hproduct : (Int64.ofNat volume.toNat * max).toInt = volume.toNat * max.toInt := by
    rw [Int64.toInt_mul, hvolume]
    exact Int.bmod_eq_of_le (by omega) (by omega)
  rw [Int64.toInt_div_of_ne_right _ _ (by decide), hproduct]
  rfl

/-- What a client with a mixer reports after it has set a volume. -/
theorem obtainVolume_adjustVolume {ctx : AlsaplayerCtx} {mixer : Mixer} (hsoftvol : ctx.isSoftvol = false)
    (hmixer : ctx.mixer = some mixer) (volume : UInt8) :
    (obtainVolume (adjustVolume ctx volume)).1 = UInt8.ofInt (cRound
      (((.ofNat volume.toNat * mixer.max / 100 : Int64).toInt : ℚ) * 100 / mixer.max.toInt)) := by
  have hinit : mixerInit ctx = ctx := by rw [mixerInit, hmixer]
  have hset : adjustVolume ctx volume = { ctx with
      mixer := some { mixer with volume := .ofNat volume.toNat * mixer.max / 100 } } := by
    rw [adjustVolume, hsoftvol, if_neg Bool.false_ne_true, hinit]
    dsimp only
    rw [hmixer, Option.map_some, hsoftvol]
  rw [hset, obtainVolume, hsoftvol, if_neg Bool.false_ne_true]
  rfl

/-- The server takes the reported volume for the recorded one exactly when the mixer has not cut off too
much. -/
theorem reported_isRoughly_iff {ctx : AlsaplayerCtx} {mixer : Mixer} (hsoftvol : ctx.isSoftvol = false)
    (hmixer : ctx.mixer = some mixer) (hmax : 1 ≤ mixer.max.toInt) {volume : UInt8}
    (hvolume : volume.toNat ≤ 100) (hfits : volume.toNat * mixer.max.toInt < 2 ^ 63) :
    isRoughly (obtainVolume (adjustVolume ctx volume)).1 volume = true ↔
      2 * (volume.toNat * mixer.max.toInt % 100) ≤ 3 * mixer.max.toInt := by
  have hm : 0 < mixer.max.toInt := by omega
  have hr : 0 ≤ volume.toNat * mixer.max.toInt % 100 := Int.emod_nonneg _ (by decide)
  have hv : (0 : Int) ≤ volume.toNat := Int.natCast_nonneg _
  obtain ⟨hle, hiff⟩ := loss_bounds hm hr
  obtain ⟨hnonneg, hreported⟩ := reported_eq hv hm
  rw [obtainVolume_adjustVolume hsoftvol hmixer, scaled_toInt hmax hfits, hreported, isRoughly_iff, ← hiff]
  generalize (mixer.max.toInt - 2 * (volume.toNat * mixer.max.toInt % 100)) / (2 * mixer.max.toInt) = lost
    at hle hnonneg ⊢
  have htoNat : ((UInt8.ofInt (volume.toNat + lost)).toNat : Int) = volume.toNat + lost := by
    rw [UInt8.ofInt, UInt8.toNat_ofNat']
    omega
  rw [htoNat]
  omega

/-- A HELLO of a known client is answered with a volume exactly when it reports another one. -/
theorem refreshClient_sent_iff {n : Nat} {clock : ServerClock} {opened : Option Nat} {s s' : Server n}
    {peer : Peer} {i : Fin (n + 1)} {k : Nat} {existing : ClientRecord}
    (hfind : findClient s peer.hello.id = some (i, k)) (hexisting : s.clientAt i k = some existing)
    (hport : peer.port = existing.port) (hrun : clientmgrRefreshClient clock opened s peer = .ok s') :
    s'.sent = s.sent ↔ isRoughly peer.hello.volumePercent existing.volumePercent = true := by
  rw [clientmgrRefreshClient, hfind] at hrun
  dsimp only at hrun
  rw [hexisting] at hrun
  dsimp only at hrun
  rw [if_neg (not_not.mpr hport)] at hrun
  obtain ⟨tasks, -, hrun⟩ := except_bind_ok hrun
  obtain rfl := Except.ok.inj hrun
  have hexisting' : Server.clientAt { s with tasks } i k = some existing := hexisting
  rw [noteSeen, hexisting']
  dsimp only
  split_ifs with hroughly
  · exact iff_of_true rfl hroughly
  · refine iff_of_false (fun hsent => ?_) hroughly
    have hlength := congrArg List.length hsent
    rw [show (Server.sent _).length = s.sent.length + 1 from List.length_append] at hlength
    omega

/-- A client that has set the recorded volume and reports what its mixer has made of it is sent no
correction, exactly when twice what the percentage cuts off is no more than three times the range. -/
theorem volumeAgreement_iff {ctx : AlsaplayerCtx} {mixer : Mixer} (hsoftvol : ctx.isSoftvol = false)
    (hmixer : ctx.mixer = some mixer) (hmax : 1 ≤ mixer.max.toInt) {n : Nat} {clock : ServerClock}
    {opened : Option Nat} {s s' : Server n} {peer : Peer} {i : Fin (n + 1)} {k : Nat}
    {existing : ClientRecord} (hvolume : existing.volumePercent.toNat ≤ 100)
    (hfits : existing.volumePercent.toNat * mixer.max.toInt < 2 ^ 63)
    (hreport : peer.hello.volumePercent = (obtainVolume (adjustVolume ctx existing.volumePercent)).1)
    (hfind : findClient s peer.hello.id = some (i, k)) (hexisting : s.clientAt i k = some existing)
    (hport : peer.port = existing.port) (hrun : clientmgrRefreshClient clock opened s peer = .ok s') :
    (isRoughly peer.hello.volumePercent existing.volumePercent = true ↔
      2 * (existing.volumePercent.toNat * mixer.max.toInt % 100) ≤ 3 * mixer.max.toInt) ∧
    (s'.sent = s.sent ↔
      2 * (existing.volumePercent.toNat * mixer.max.toInt % 100) ≤ 3 * mixer.max.toInt) := by
  have haccepted := reported_isRoughly_iff hsoftvol hmixer hmax hvolume hfits
  rw [← hreport] at haccepted
  exact ⟨haccepted, (refreshClient_sent_iff hfind hexisting hport hrun).trans haccepted⟩

/-- The player of a client whose mixer has the range. -/
def mixerOf (max : Int64) : AlsaplayerCtx :=
  ⟨48000, 2, 2, false, false, 0, none, false, 0, some ⟨max, 0⟩, none⟩

/-- A server with client 1, whose volume is recorded, and its purge task. -/
def refreshedServer (volume : UInt8) : Server 1 :=
  { (freshServer 1000 twoStreams).setClients 0 [{ listener false with volumePercent := volume }] with
    tasks := (TaskPool.empty.postTask ⟨1, 0⟩ 5 0 (.scheduleDeleteClient 1)).2 }

/-- The HELLO of client 1 after it has set the volume. -/
def reportOf (max : Int64) (volume : UInt8) : Peer :=
  ⟨⟨1, 0, (obtainVolume (adjustVolume (mixerOf max) volume)).1⟩, ⟨1⟩, 100⟩

/-- A mixer with 37 steps reports 49 instead of 50, which is accepted. -/
theorem volumeAgreement_coarse :
    ∃ s', clientmgrRefreshClient ⟨⟨2, 0⟩, ⟨2, 0⟩⟩ none (refreshedServer 50) (reportOf 37 50) = .ok s' ∧
      s'.sent = (refreshedServer 50).sent := by
  have hmixer : (mixerOf 37).mixer = some ⟨37, 0⟩ := rfl
  have hfind : findClient (refreshedServer 50) (reportOf 37 50).hello.id = some (0, 0) := by decide
  have hexisting : (refreshedServer 50).clientAt 0 0 =
      some { listener false with volumePercent := 50 } := rfl
  obtain ⟨s', hrun⟩ : ∃ s', clientmgrRefreshClient ⟨⟨2, 0⟩, ⟨2, 0⟩⟩ none (refreshedServer 50)
    (reportOf 37 50) = .ok s' := ⟨_, rfl⟩
  exact ⟨s', hrun, (volumeAgreement_iff rfl hmixer (by decide) (by decide) (by decide) rfl hfind
    hexisting rfl hrun).2.mpr (by decide)⟩

/-- A mixer with 51 steps reports 47 instead of 49, and the server corrects it. -/
theorem volumeAgreement_fails :
    isRoughly (obtainVolume (adjustVolume (mixerOf 51) 49)).1 49 = false ∧
      ∃ s', clientmgrRefreshClient ⟨⟨2, 0⟩, ⟨2, 0⟩⟩ none (refreshedServer 49) (reportOf 51 49) = .ok s' ∧
        s'.sent ≠ (refreshedServer 49).sent := by
  have hmixer : (mixerOf 51).mixer = some ⟨51, 0⟩ := rfl
  have hfind : findClient (refreshedServer 49) (reportOf 51 49).hello.id = some (0, 0) := by decide
  have hexisting : (refreshedServer 49).clientAt 0 0 =
      some { listener false with volumePercent := 49 } := rfl
  have hrejected : ¬isRoughly (obtainVolume (adjustVolume (mixerOf 51) 49)).1 49 = true := by
    rw [reported_isRoughly_iff rfl hmixer (by decide) (by decide) (by decide)]
    decide
  obtain ⟨s', hrun⟩ : ∃ s', clientmgrRefreshClient ⟨⟨2, 0⟩, ⟨2, 0⟩⟩ none (refreshedServer 49)
    (reportOf 51 49) = .ok s' := ⟨_, rfl⟩
  refine ⟨Bool.eq_false_iff.mpr hrejected, s', hrun, fun hsent => hrejected ?_⟩
  exact (refreshClient_sent_iff hfind hexisting rfl hrun).mp hsent

end Snapcastc
