import Snapcastc.StreamParseUri

/-! For which strings `stream_parse` returns: it never asks whether the part of the string that it reads next
is there. -/

namespace Snapcastc

open Tokens

/-! ### What is read is there -/

/-- The keys that `stream_parse` knows. -/
def KnownSection (piece : List UInt8) : Prop :=
  sectionKey piece ∈ [keyBufferMs, keyCodec, keyName, keySampleformat]

instance (piece : List UInt8) : Decidable (KnownSection piece) := inferInstanceAs (Decidable (_ ∈ _))

/-- The parts of an option that are read are there: the value, and three numbers for a sample format. -/
def SectionComplete (piece : List UInt8) : Prop :=
  (sectionKey piece = keyBufferMs ∨ sectionKey piece = keyCodec → sectionValue piece ≠ none) ∧
    (sectionKey piece = keySampleformat → 3 ≤ (pieces 58 ((sectionValue piece).getD [])).length)

instance (piece : List UInt8) : Decidable (SectionComplete piece) := inferInstanceAs (Decidable (_ ∧ _))

/-- A description has no path, or an option, and all options up to an unknown one are complete. -/
def UriComplete (uri : List UInt8) : Prop :=
  pieces 63 uri = [] ∨
    (uriOptions uri ≠ [] ∧ ∀ piece ∈ (uriOptions uri).takeWhile KnownSection, SectionComplete piece)

instance (uri : List UInt8) : Decidable (UriComplete uri) := inferInstanceAs (Decidable (_ ∨ _))

/-- What stands behind the first `"://"`. -/
def uriOf (raw : List UInt8) : Option (List UInt8) :=
  (strstr protocolDelimiter raw).map fun delimiter => raw.drop (delimiter + protocolDelimiter.length)

/-- A string is not for `stream_parse`, or it has the delimiter and a complete description behind it. -/
def StreamComplete (raw : List UInt8) : Prop :=
  strncmp raw textPipe 4 = 0 → ∃ uri ∈ uriOf raw, UriComplete uri

instance (raw : List UInt8) : Decidable (StreamComplete raw) := inferInstanceAs (Decidable (_ → _))

/-- The rate and the number of channels after an option. -/
def formatAfter (format : Int × Int) (piece : List UInt8) : Int × Int :=
  if sectionKey piece = keySampleformat then
    match pieces 58 ((sectionValue piece).getD []) with
    | samples :: _ :: channels :: _ => (atol samples, longToInt (atol channels))
    | _ => format
  else format

/-- The encoder can be created, where `stream_parse` gets as far: with the last sample format, or the one of
the stream, and the default bit rate. -/
def EncoderCreated (opus : OpusEncoder) (s : ParsedStream) (raw : List UInt8) : Prop :=
  strncmp raw textPipe 4 = 0 → ∀ uri ∈ uriOf raw, (∀ piece ∈ uriOptions uri, KnownSection piece) →
    let format := (uriOptions uri).foldl formatAfter (s.samples, s.channels)
    0 ≤ opus.create format.1 format.2 ∧ 0 ≤ opus.setBitrate 96000

theorem readSection_unknown (s : ParsedStream) {piece : List UInt8} (hpiece : ¬KnownSection piece) :
    readSection s piece = .ok none := by
  simp only [KnownSection, List.mem_cons, List.not_mem_nil, or_false, not_or] at hpiece
  obtain ⟨hbufferMs, hcodec, hname, hsampleformat⟩ := hpiece
  rw [readSection, if_neg hbufferMs, if_neg hcodec, if_neg hname, if_neg hsampleformat]
  rfl

/-- A complete option is read, with the sample format that it gives. -/
theorem readSection_complete (s : ParsedStream) {piece : List UInt8} (hknown : KnownSection piece)
    (hpiece : SectionComplete piece) :
    ∃ s', readSection s piece = .ok (some s') ∧
      (s'.samples, s'.channels) = formatAfter (s.samples, s.channels) piece := by
  obtain ⟨hvalue, hthree⟩ := hpiece
  simp only [KnownSection, List.mem_cons, List.not_mem_nil, or_false] at hknown
  unfold readSection formatAfter
  rcases hknown with hkey | hkey | hkey | hkey
  · obtain ⟨value, hsome⟩ := Option.ne_none_iff_exists'.mp (hvalue (.inl hkey))
    rw [hkey, hsome]
    exact ⟨_, rfl, rfl⟩
  · obtain ⟨value, hsome⟩ := Option.ne_none_iff_exists'.mp (hvalue (.inr hkey))
    rw [hkey, hsome]
    exact ⟨_, rfl, rfl⟩
  · rw [hkey]
    exact ⟨_, rfl, rfl⟩
  · have hlength := hthree hkey
    rw [hkey]
    unfold readSampleformat
    generalize pieces 58 ((sectionValue piece).getD []) = numbers at hlength ⊢
    rcases numbers with - | ⟨samples, - | ⟨bits, - | ⟨channels, more⟩⟩⟩
    · exact absurd hlength (by decide)
    · exact absurd hlength (by simp)
    · exact absurd hlength (by simp)
    · exact ⟨_, rfl, rfl⟩

/-- Where a part is missing, a null pointer is read. -/
theorem readSection_incomplete (s : ParsedStream) {piece : List UInt8} (hpiece : ¬SectionComplete piece) :
    readSection s piece = .error .nullPointer := by
  rw [SectionComplete, not_and_or] at hpiece
  unfold readSection
  rcases hpiece with hvalue | hthree
  · obtain ⟨hkey, hnone⟩ := Classical.not_imp.mp hvalue
    rw [not_not.mp hnone]
    rcases hkey with hkey | hkey
    · rw [hkey]
      rfl
    · rw [hkey]
      rfl
  · obtain ⟨hkey, hlength⟩ := Classical.not_imp.mp hthree
    rw [hkey]
    change readSampleformat _ _ = _
    unfold readSampleformat
    generalize pieces 58 ((sectionValue piece).getD []) = numbers at hlength ⊢
    rcases numbers with - | ⟨samples, - | ⟨bits, - | ⟨channels, more⟩⟩⟩
    · rfl
    · rfl
    · rfl
    · exact absurd (by simp) hlength

/-- Complete options are read, up to the first unknown one. -/
theorem readSections_complete (options : List (List UInt8)) (s : ParsedStream)
    (hoptions : ∀ piece ∈ options.takeWhile KnownSection, SectionComplete piece) :
    ∃ s', readSections options s = .ok (decide (∀ piece ∈ options, KnownSection piece), s') ∧
      ((∀ piece ∈ options, KnownSection piece) →
        (s'.samples, s'.channels) = options.foldl formatAfter (s.samples, s.channels)) := by
  induction options generalizing s with
  | nil => exact ⟨s, rfl, fun _ => rfl⟩
  | cons piece rest ih =>
      rw [readSections]
      by_cases hknown : KnownSection piece
      · simp only [List.takeWhile_cons, hknown, decide_true, if_true, List.forall_mem_cons] at hoptions
        obtain ⟨s', hread, hformat⟩ := readSection_complete s hknown hoptions.1
        rw [hread, List.foldl_cons, ← hformat]
        simp only [List.forall_mem_cons, hknown, true_and]
        exact ih s' hoptions.2
      · rw [readSection_unknown s hknown]
        simp only [List.forall_mem_cons, hknown, false_and, decide_false]
        exact ⟨s, rfl, False.elim⟩

/-- A missing part before the first unknown option is run into. -/
theorem readSections_incomplete (options : List (List UInt8)) (s : ParsedStream)
    (hoptions : ¬(∀ piece ∈ options.takeWhile KnownSection, SectionComplete piece)) :
    readSections options s = .error .nullPointer := by
  induction options generalizing s with
  | nil => exact absurd (fun piece hmem => absurd hmem List.not_mem_nil) hoptions
  | cons piece rest ih =>
      rw [readSections]
      by_cases hknown : KnownSection piece
      · simp only [List.takeWhile_cons, hknown, decide_true, if_true, List.forall_mem_cons] at hoptions
        by_cases hpiece : SectionComplete piece
        · obtain ⟨s', hread, -⟩ := readSection_complete s hknown hpiece
          rw [hread]
          exact ih s' (fun hrest => hoptions ⟨hpiece, hrest⟩)
        · rw [readSection_incomplete s hpiece]
          rfl
      · simp [hknown] at hoptions

theorem uriOptions_of_pieces {uri : List UInt8} (hpieces : pieces 63 uri = []) : uriOptions uri = [] := by
  have hall := takeWhile_of_pieces hpieces
  have hnil : uri.dropWhile (· = 63) = [] := by
    rw [List.dropWhile_eq_nil_iff]
    exact List.takeWhile_eq_self_iff.mp hall
  rw [uriOptions, behindPiece, hnil]
  rfl

theorem readUri_complete (s : ParsedStream) {uri : List UInt8} (huri : UriComplete uri) :
    ∃ s', readUri s uri = .ok (decide (∀ piece ∈ uriOptions uri, KnownSection piece), s') ∧
      ((∀ piece ∈ uriOptions uri, KnownSection piece) →
        (s'.samples, s'.channels) = (uriOptions uri).foldl formatAfter (s.samples, s.channels)) := by
  unfold readUri
  dsimp only
  by_cases hpieces : pieces 63 uri = []
  · rw [if_pos hpieces, uriOptions_of_pieces hpieces]
    exact ⟨_, rfl, fun _ => rfl⟩
  · obtain ⟨hsome, hoptions⟩ := huri.resolve_left hpieces
    rw [if_neg hpieces, if_neg hsome]
    exact readSections_complete (uriOptions uri) _ hoptions

theorem readUri_incomplete (s : ParsedStream) {uri : List UInt8} (huri : ¬UriComplete uri) :
    readUri s uri = .error .nullPointer := by
  rw [UriComplete, not_or] at huri
  obtain ⟨hpieces, hnot⟩ := huri
  unfold readUri
  dsimp only
  rw [if_neg hpieces]
  split_ifs with hnil
  · rfl
  · exact readSections_incomplete _ _ fun hoptions => hnot ⟨hnil, hoptions⟩

/-- The encoder is created, or the process exits. -/
theorem opusInitEncoder_cases (opus : OpusEncoder) (ctx : OpuscodecCtx) (mss samples channels : Int) :
    (0 ≤ opus.create samples channels ∧ 0 ≤ opus.setBitrate ctx.bitrate ∧
      opusInitEncoder opus ctx mss samples channels = .ok { ctx with encoder := true, mss }) ∨
    (¬(0 ≤ opus.create samples channels ∧ 0 ≤ opus.setBitrate ctx.bitrate) ∧
      ∃ message, opusInitEncoder opus ctx mss samples channels = .error (.exitError message)) := by
  unfold opusInitEncoder
  split_ifs with hcreate hbitrate
  · exact .inr ⟨fun hboth => absurd hboth.1 (not_le.mpr hcreate), _, rfl⟩
  · exact .inr ⟨fun hboth => absurd hboth.2 (not_le.mpr hbitrate), _, rfl⟩
  · exact .inl ⟨not_lt.mp hcreate, not_lt.mp hbitrate, rfl⟩

/-- After the string was read, `stream_parse` returns unless the encoder cannot be created. -/
theorem initParsed_returns_iff (opus : OpusEncoder) (mtu : Int) (raw : List UInt8)
    (result : Bool × ParsedStream) :
    (∃ result', initParsed opus mtu raw result = .ok result') ↔
      (result.1 = true →
        0 ≤ opus.create result.2.samples result.2.channels ∧ 0 ≤ opus.setBitrate 96000) := by
  unfold initParsed
  split_ifs with hparsed
  · rw [hparsed]
    rcases opusInitEncoder_cases opus { result.2.opuscodecCtx with bitrate := 96000 }
      (longToInt (mtu - ipoverheadBytes - sizeofHdr - chunkHeaderSize - udpoverheadBytes))
      result.2.samples result.2.channels with ⟨hcreate, hbitrate, hinit⟩ | ⟨hnot, message, hinit⟩
    · rw [hinit]
      exact ⟨fun _ _ => ⟨hcreate, hbitrate⟩, fun _ => ⟨_, rfl⟩⟩
    · rw [hinit]
      exact ⟨fun ⟨result', hreturns⟩ => absurd hreturns (by rintro ⟨⟩), fun hboth => absurd (hboth rfl) hnot⟩
  · exact ⟨fun _ htrue => absurd htrue hparsed, fun _ => ⟨_, rfl⟩⟩

theorem initParsed_ne_nullPointer (opus : OpusEncoder) (mtu : Int) (raw : List UInt8)
    (result : Bool × ParsedStream) : initParsed opus mtu raw result ≠ .error .nullPointer := by
  unfold initParsed
  split_ifs
  · rcases opusInitEncoder_cases opus { result.2.opuscodecCtx with bitrate := 96000 }
      (longToInt (mtu - ipoverheadBytes - sizeofHdr - chunkHeaderSize - udpoverheadBytes))
      result.2.samples result.2.channels with ⟨-, -, hinit⟩ | ⟨-, message, hinit⟩
    · rw [hinit]
      rintro ⟨⟩
    · rw [hinit]
      rintro ⟨⟩
  · rintro ⟨⟩

/-- With a part missing, `stream_parse` reads a null pointer. -/
theorem streamParse_incomplete (opus : OpusEncoder) (mtu : Int) (s : ParsedStream) {raw : List UInt8}
    (hzero : 0 ∉ raw) (hraw : ¬StreamComplete raw) :
    streamParse opus mtu s raw = .error .nullPointer := by
  obtain ⟨hpipe, hnot⟩ := Classical.not_imp.mp hraw
  cases hdelimiter : strstr protocolDelimiter raw with
  | none =>
      rw [streamParse_eq, if_neg (not_not.mpr hpipe), hdelimiter]
  | some delimiter =>
      have huri : ¬UriComplete (raw.drop (delimiter + protocolDelimiter.length)) := fun huri =>
        hnot ⟨_, by rw [uriOf, hdelimiter]; rfl, huri⟩
      obtain ⟨buffer, hparse⟩ := streamParse_reads opus mtu s hzero hpipe hdelimiter
      rw [hparse, readUri_incomplete s huri]
      rfl

/-- With all parts there, what is left is the creation of the encoder. -/
theorem streamParse_complete (opus : OpusEncoder) (mtu : Int) (s : ParsedStream) {raw : List UInt8}
    (hzero : 0 ∉ raw) (hraw : StreamComplete raw) :
    streamParse opus mtu s raw ≠ .error .nullPointer ∧
      ((∃ result, streamParse opus mtu s raw = .ok result) ↔ EncoderCreated opus s raw) := by
  by_cases hpipe : strncmp raw textPipe 4 = 0
  · obtain ⟨uri, hmem, huri⟩ := hraw hpipe
    obtain ⟨delimiter, hdelimiter, rfl⟩ := Option.map_eq_some_iff.mp hmem
    obtain ⟨buffer, hparse⟩ := streamParse_reads opus mtu s hzero hpipe hdelimiter
    obtain ⟨s', hread, hformat⟩ := readUri_complete s huri
    rw [hparse, hread]
    change initParsed opus mtu raw (withRaw buffer _) ≠ _ ∧ ((∃ result, initParsed opus mtu raw _ = _) ↔ _)
    refine ⟨initParsed_ne_nullPointer _ _ _ _, (initParsed_returns_iff _ _ _ _).trans ⟨?_, ?_⟩⟩
    · intro hinit _ uri huri' hknown
      obtain rfl := Option.mem_unique hmem huri'
      have hencoder := hinit (decide_eq_true hknown)
      rw [← hformat hknown]
      exact hencoder
    · intro hencoder hknown
      have hinit := hencoder hpipe _ hmem (of_decide_eq_true hknown)
      rw [← hformat (of_decide_eq_true hknown)] at hinit
      exact hinit
  · rw [streamParse_eq, if_pos hpipe]
    refine ⟨by rintro ⟨⟩, fun _ hpipe' => absurd hpipe' hpipe, fun _ => ⟨_, rfl⟩⟩

/-- `stream_parse` reads a null pointer exactly where a part of the string is missing. It returns exactly
where none is and, when the options are known, the encoder can be created. -/
theorem streamParse_total_iff (opus : OpusEncoder) (mtu : Int) (s : ParsedStream) {raw : List UInt8}
    (hzero : 0 ∉ raw) :
    (streamParse opus mtu s raw ≠ .error .nullPointer ↔ StreamComplete raw) ∧
      ((∃ parsed s', streamParse opus mtu s raw = .ok (parsed, s')) ↔
        StreamComplete raw ∧ EncoderCreated opus s raw) := by
  by_cases hraw : StreamComplete raw
  · obtain ⟨hpointer, hreturns⟩ := streamParse_complete opus mtu s hzero hraw
    refine ⟨iff_of_true hpointer hraw, ?_⟩
    rw [← Prod.exists', hreturns, and_iff_right hraw]
  · have hpointer := streamParse_incomplete opus mtu s hzero hraw
    refine ⟨iff_of_false (not_not.mpr hpointer) hraw, iff_of_false ?_ fun hboth => hraw hboth.1⟩
    rintro ⟨parsed, s', hreturns⟩
    rw [hpointer] at hreturns
    cases hreturns

/-- The description of the test `parse_streaminfo` has all its parts. -/
theorem streamParse_total_snapfifo :
    ∃ parsed s', streamParse anyEncoder 1500 emptyStream
      (streamUri pathSnapfifo (fourOptions 20 .opus textDefault 48000 16 2)) = .ok (parsed, s') :=
  (streamParse_total_iff anyEncoder 1500 emptyStream (by decide)).2.mpr
    ⟨by decide, fun _ _ _ _ => ⟨le_refl 0, le_refl 0⟩⟩

/-- `"pipe:///tmp/snapfifo"`. -/
def uriWithoutOptions : List UInt8 := textPipe ++ (protocolDelimiter ++ pathSnapfifo)

/-- Without options, the first round of the loop reads a null pointer. -/
theorem streamParse_not_total :
    ¬∀ raw : List UInt8, 0 ∉ raw →
      (∃ parsed s', streamParse anyEncoder 1500 emptyStream raw = .ok (parsed, s')) ∧
        streamParse anyEncoder 1500 emptyStream raw ≠ .error .nullPointer := by
  intro htotal
  exact (htotal uriWithoutOptions (by decide)).2 (by decide +kernel)

end Snapcastc
