import Snapcastc.StreamParsePieces

/-! Descriptions of streams as they are written on the command line, and that `stream_parse` reads them. -/

namespace Snapcastc

open Tokens

/-- A number as it is printed. -/
def decimal (n : Nat) : List UInt8 := (Nat.toDigits 10 n).map fun c => UInt8.ofNat c.toNat

theorem isDigit_toNat {c : Char} (hc : c.isDigit = true) : 48 ≤ c.toNat ∧ c.toNat ≤ 57 := by
  unfold Char.isDigit at hc
  rw [Bool.and_eq_true, decide_eq_true_eq, decide_eq_true_eq] at hc
  exact ⟨UInt32.le_iff_toNat_le.mp hc.1, UInt32.le_iff_toNat_le.mp hc.2⟩

theorem mem_decimal {n : Nat} {c : UInt8} (hc : c ∈ decimal n) : 48 ≤ c.toNat ∧ c.toNat ≤ 57 := by
  obtain ⟨digit, hdigit, rfl⟩ := List.mem_map.mp hc
  obtain ⟨hlo, hhi⟩ := isDigit_toNat (Nat.isDigit_of_mem_toDigits (by decide) (by decide) hdigit)
  rw [UInt8.toNat_ofNat', Nat.mod_eq_of_lt (by omega)]
  exact ⟨hlo, hhi⟩

/-- No other character is in a number. -/
theorem not_mem_decimal {n : Nat} {c : UInt8} (hc : c.toNat < 48 ∨ 57 < c.toNat) : c ∉ decimal n := by
  intro hmem
  have hdigit := mem_decimal hmem
  omega

theorem decimal_ne_nil (n : Nat) : decimal n ≠ [] := by
  rw [decimal, ne_eq, List.map_eq_nil_iff]
  exact Nat.toDigits_ne_nil

theorem digitsValue_decimal (n : Nat) : digitsValue (decimal n) = n := by
  have hall : ∀ c ∈ decimal n, isdigit c = true := by
    intro c hc
    obtain ⟨hlo, hhi⟩ := mem_decimal hc
    rw [isdigit, Bool.and_eq_true, decide_eq_true_eq, decide_eq_true_eq]
    exact ⟨UInt8.le_iff_toNat_le.mpr hlo, UInt8.le_iff_toNat_le.mpr hhi⟩
  have hfold : ∀ digits : List Char, (∀ c ∈ digits, c.isDigit = true) → ∀ value,
      (digits.map fun c => UInt8.ofNat c.toNat).foldl (fun value c => 10 * value + (c.toNat - 48)) value =
        Nat.ofDigitChars 10 digits value := by
    intro digits
    induction digits with
    | nil => intro _ value; exact Nat.ofDigitChars_nil.symm
    | cons c digits ih =>
        intro hdigits value
        rw [List.forall_mem_cons] at hdigits
        have hbyte : (UInt8.ofNat c.toNat).toNat = c.toNat := by
          have hbound := (isDigit_toNat hdigits.1).2
          rw [UInt8.toNat_ofNat', Nat.mod_eq_of_lt (by omega)]
        rw [List.map_cons, List.foldl_cons, ih hdigits.2, Nat.ofDigitChars_cons, hbyte]
        rfl
  rw [digitsValue, List.takeWhile_eq_self_iff.mpr hall, decimal,
    hfold _ fun c hc => Nat.isDigit_of_mem_toDigits (by decide) (by decide) hc,
    Nat.ofDigitChars_ten_toDigits]

/-- `atol` reads a number as it was printed. -/
theorem atol_decimal {n : Nat} (hn : n < 2 ^ 63) : atol (decimal n) = n := by
  have hvalue := digitsValue_decimal n
  have hnonempty := decimal_ne_nil n
  have hdigits : ∀ c ∈ decimal n, 48 ≤ c.toNat ∧ c.toNat ≤ 57 := fun _ => mem_decimal
  generalize decimal n = string at hvalue hnonempty hdigits ⊢
  obtain ⟨c, rest, rfl⟩ := List.exists_cons_of_ne_nil hnonempty
  obtain ⟨hlo, hhi⟩ := hdigits c List.mem_cons_self
  have hspace : isspace c = false := by
    rw [isspace, Bool.or_eq_false_iff, beq_eq_false_iff_ne, Bool.and_eq_false_iff, decide_eq_false_iff_not,
      decide_eq_false_iff_not]
    refine ⟨fun heq => ?_, .inr fun hle => ?_⟩
    · rw [heq] at hlo
      exact absurd hlo (by decide)
    · have hle' : c.toNat ≤ 13 := UInt8.le_iff_toNat_le.mp hle
      omega
  have hsign : ∀ sign : UInt8, sign.toNat < 48 → ¬(c :: rest).head? = some sign := by
    intro sign hsign heq
    rw [← Option.some.inj heq] at hsign
    omega
  rw [atol, List.dropWhile_cons_of_neg (by rw [hspace]; exact Bool.false_ne_true),
    if_neg (hsign 45 (by decide)), if_neg (hsign 43 (by decide)), hvalue]
  omega

theorem longToInt_of_lt {x : Int} (hzero : 0 ≤ x) (hx : x < 2 ^ 31) : longToInt x = x :=
  Int.bmod_eq_of_le (by omega) (by omega)

/-! ### Options -/

inductive StreamOption where
  | bufferMs (ms : Nat)
  | codec (codec : StreamCodec)
  | name (name : List UInt8)
  | sampleformat (rate bits channels : Nat)
  deriving DecidableEq, Repr

/-- A string, not empty, without the characters that separate options. -/
def PlainText (string : List UInt8) : Prop := 0 ∉ string ∧ 38 ∉ string ∧ 61 ∉ string ∧ string ≠ []

instance (string : List UInt8) : Decidable (PlainText string) := inferInstanceAs (Decidable (_ ∧ _))

namespace StreamOption

def key : StreamOption → List UInt8
  | .bufferMs _ => keyBufferMs
  | .codec _ => keyCodec
  | .name _ => keyName
  | .sampleformat _ _ _ => keySampleformat

def value : StreamOption → List UInt8
  | .bufferMs ms => decimal ms
  | .codec .opus => textOpus
  | .codec .pcm => textPcm
  | .codec .invalid => []
  | .name text => text
  | .sampleformat rate bits channels => decimal rate ++ 58 :: (decimal bits ++ 58 :: decimal channels)

/-- The option as it stands in the description of a stream. -/
def text (option : StreamOption) : List UInt8 := option.key ++ 61 :: option.value

/-- The option can be written down, and its numbers fit where they are stored. -/
def WellFormed : StreamOption → Prop
  | .bufferMs ms => ms < 2 ^ 63
  | .codec format => format ≠ .invalid
  | .name text => PlainText text
  | .sampleformat rate bits channels =>
      rate < 2 ^ 63 ∧ bits < 2 ^ 63 ∧ bits / 8 < 2 ^ 31 ∧ channels < 2 ^ 31

def apply (s : ParsedStream) : StreamOption → ParsedStream
  | .bufferMs ms => { s with readMs := ms }
  | .codec format => { s with codec := some format }
  | .name text => { s with name := some text }
  | .sampleformat rate bits channels =>
      { s with samples := rate, samplesize := (bits / 8 : Nat), channels := channels }

theorem key_plain (option : StreamOption) : PlainText option.key := by
  have hkeys : PlainText keyBufferMs ∧ PlainText keyCodec ∧ PlainText keyName ∧ PlainText keySampleformat := by
    decide
  obtain ⟨hbufferMs, hcodec, hname, hsampleformat⟩ := hkeys
  cases option with
  | bufferMs ms => exact hbufferMs
  | codec format => exact hcodec
  | name text => exact hname
  | sampleformat rate bits channels => exact hsampleformat

theorem value_plain {option : StreamOption} (hoption : option.WellFormed) : PlainText option.value := by
  have hnumber : ∀ n, PlainText (decimal n) := fun n =>
    ⟨not_mem_decimal (.inl (by decide)), not_mem_decimal (.inl (by decide)),
      not_mem_decimal (.inr (by decide)), decimal_ne_nil n⟩
  cases option with
  | bufferMs ms => exact hnumber ms
  | codec format =>
      cases format with
      | pcm => exact (by decide : PlainText textPcm)
      | opus => exact (by decide : PlainText textOpus)
      | invalid => exact absurd rfl hoption
  | name text => exact hoption
  | sampleformat rate bits channels =>
      have hjoin : ∀ c : UInt8, c ≠ 58 → c ∉ decimal rate → c ∉ decimal bits → c ∉ decimal channels →
          c ∉ (sampleformat rate bits channels).value := by
        intro c hc hrate hbits hchannels hmem
        rcases List.mem_append.mp hmem with hmem | hmem
        · exact hrate hmem
        · rcases List.mem_append.mp (List.mem_of_ne_of_mem hc hmem) with hmem | hmem
          · exact hbits hmem
          · exact hchannels (List.mem_of_ne_of_mem hc hmem)
      obtain ⟨hzero, hand, hequals, -⟩ := hnumber rate
      obtain ⟨hzero', hand', hequals', -⟩ := hnumber bits
      obtain ⟨hzero'', hand'', hequals'', -⟩ := hnumber channels
      exact ⟨hjoin 0 (by decide) hzero hzero' hzero'', hjoin 38 (by decide) hand hand' hand'',
        hjoin 61 (by decide) hequals hequals' hequals'',
        List.append_ne_nil_of_right_ne_nil _ (List.cons_ne_nil _ _)⟩

/-- The whole option is one token between the characters `&`. -/
theorem text_plain {option : StreamOption} (hoption : option.WellFormed) :
    0 ∉ option.text ∧ 38 ∉ option.text ∧ option.text ≠ [] := by
  obtain ⟨hzero, hand, -, -⟩ := option.key_plain
  obtain ⟨hzero', hand', -, -⟩ := value_plain hoption
  have hjoin : ∀ c : UInt8, c ≠ 61 → c ∉ option.key → c ∉ option.value → c ∉ option.text := by
    intro c hc hkey hvalue hmem
    rcases List.mem_append.mp hmem with hmem | hmem
    · exact hkey hmem
    · exact hvalue (List.mem_of_ne_of_mem hc hmem)
  exact ⟨hjoin 0 (by decide) hzero hzero', hjoin 38 (by decide) hand hand',
    List.append_ne_nil_of_right_ne_nil _ (List.cons_ne_nil _ _)⟩

end StreamOption

def optionsText : List StreamOption → List UInt8
  | [] => []
  | [option] => option.text
  | option :: options => option.text ++ 38 :: optionsText options

def streamUri (path : List UInt8) (options : List StreamOption) : List UInt8 :=
  textPipe ++ (protocolDelimiter ++ (path ++ 63 :: optionsText options))

/-! ### Reading options -/

namespace StreamOption

/-- An option is cut into its key and its value. -/
theorem pieces_text {option : StreamOption} (hoption : option.WellFormed) :
    pieces 61 option.text = [option.key, option.value] := by
  obtain ⟨-, -, hkey, hkeyNonempty⟩ := option.key_plain
  obtain ⟨-, -, hvalue, hvalueNonempty⟩ := value_plain hoption
  rw [text, pieces_append, pieces_of_not_mem hkeyNonempty hkey, pieces_of_not_mem hvalueNonempty hvalue,
    List.singleton_append]

theorem sectionKey_text {option : StreamOption} (hoption : option.WellFormed) :
    sectionKey option.text = option.key := by
  obtain ⟨-, -, hkey, hkeyNonempty⟩ := option.key_plain
  obtain ⟨c, rest, hcons⟩ := List.exists_cons_of_ne_nil hkeyNonempty
  have hc : ¬c = 61 := by
    rintro rfl
    exact hkey (hcons ▸ List.mem_cons_self)
  have hlead : option.text.takeWhile (· = 61) = [] := by
    rw [text, hcons, List.cons_append, List.takeWhile_cons_of_neg (by simpa using hc)]
  rw [sectionKey, hlead, pieces_text hoption]
  rfl

theorem sectionValue_text {option : StreamOption} (hoption : option.WellFormed) :
    sectionValue option.text = some option.value := by
  rw [sectionValue, pieces_text hoption]
  rfl

/-- A sample format is cut into its three numbers. -/
theorem pieces_sampleformat (rate bits channels : Nat) :
    pieces 58 (sampleformat rate bits channels).value = [decimal rate, decimal bits, decimal channels] := by
  have hplain : ∀ n, pieces 58 (decimal n) = [decimal n] := fun n =>
    pieces_of_not_mem (decimal_ne_nil n) (not_mem_decimal (.inr (by decide)))
  rw [value, pieces_append, pieces_append, hplain, hplain, hplain, List.singleton_append,
    List.singleton_append]

/-- An option that was written down is read. -/
theorem readSection_text (s : ParsedStream) {option : StreamOption} (hoption : option.WellFormed) :
    readSection s option.text = .ok (some (option.apply s)) := by
  rw [readSection, sectionKey_text hoption, sectionValue_text hoption]
  cases option with
  | bufferMs ms =>
      change Except.ok (some { s with readMs := atol (decimal ms) }) = _
      rw [atol_decimal hoption]
      rfl
  | codec format =>
      cases format with
      | pcm => rfl
      | opus => rfl
      | invalid => exact absurd rfl hoption
  | name text => rfl
  | sampleformat rate bits channels =>
      obtain ⟨hrate, hbits, hsize, hchannels⟩ := hoption
      have hsamplesize : longToInt ((bits : Int).tdiv 8) = (bits / 8 : Nat) := by
        rw [Int.tdiv_eq_ediv_of_nonneg (Int.natCast_nonneg bits)]
        exact longToInt_of_lt (by omega) (by omega)
      have hcount : longToInt channels = channels := longToInt_of_lt (by omega) (by omega)
      change readSampleformat s (sampleformat rate bits channels).value = _
      rw [readSampleformat, pieces_sampleformat]
      dsimp only
      rw [atol_decimal hrate, atol_decimal hbits, atol_decimal (hchannels.trans (by decide)), hsamplesize, hcount]
      rfl

end StreamOption

/-- The options are the pieces of their text. -/
theorem pieces_optionsText {options : List StreamOption} (hoptions : ∀ option ∈ options, option.WellFormed) :
    pieces 38 (optionsText options) = options.map StreamOption.text := by
  induction options with
  | nil => rfl
  | cons option options ih =>
      rw [List.forall_mem_cons] at hoptions
      obtain ⟨hoption, hrest⟩ := hoptions
      obtain ⟨-, hand, hnonempty⟩ := option.text_plain hoption
      have hpiece := pieces_of_not_mem hnonempty hand
      cases options with
      | nil => exact hpiece
      | cons second options =>
          change pieces 38 (option.text ++ 38 :: optionsText (second :: options)) = _
          rw [pieces_append, hpiece, ih hrest]
          rfl

theorem zero_not_mem_optionsText {options : List StreamOption}
    (hoptions : ∀ option ∈ options, option.WellFormed) : 0 ∉ optionsText options := by
  induction options with
  | nil => exact List.not_mem_nil
  | cons option options ih =>
      rw [List.forall_mem_cons] at hoptions
      obtain ⟨hoption, hrest⟩ := hoptions
      obtain ⟨hzero, -, -⟩ := option.text_plain hoption
      cases options with
      | nil => exact hzero
      | cons second options =>
          change 0 ∉ option.text ++ 38 :: optionsText (second :: options)
          rw [List.mem_append, List.mem_cons, not_or, not_or]
          exact ⟨hzero, by decide, ih hrest⟩

theorem readSections_text {options : List StreamOption} (hoptions : ∀ option ∈ options, option.WellFormed)
    (s : ParsedStream) :
    readSections (options.map StreamOption.text) s = .ok (true, options.foldl StreamOption.apply s) := by
  induction options generalizing s with
  | nil => rfl
  | cons option options ih =>
      rw [List.forall_mem_cons] at hoptions
      rw [List.map_cons, readSections, StreamOption.readSection_text s hoptions.1]
      exact ih hoptions.2 (option.apply s)

/-! ### Whole descriptions -/

theorem strstr_streamUri (path : List UInt8) (options : List StreamOption) :
    strncmp (streamUri path options) textPipe 4 = 0 ∧
      strstr protocolDelimiter (streamUri path options) = some 4 :=
  ⟨rfl, rfl⟩

/-- The path and the options of a description are read. -/
theorem readUri_text (s : ParsedStream) {path : List UInt8} {options : List StreamOption}
    (hquestion : 63 ∉ path) (hpath : path ≠ []) (hoptions : ∀ option ∈ options, option.WellFormed)
    (hsome : options ≠ []) :
    readUri s (path ++ 63 :: optionsText options) =
      .ok (true, options.foldl StreamOption.apply { s with protocol := some .pipe, fname := some path }) := by
  have hpieces : pieces 63 (path ++ 63 :: optionsText options) = path :: pieces 63 (optionsText options) := by
    rw [pieces_append, pieces_of_not_mem hpath hquestion, List.singleton_append]
  have huri : uriOptions (path ++ 63 :: optionsText options) = options.map StreamOption.text := by
    rw [uriOptions, behindPiece_append hpath hquestion, pieces_optionsText hoptions]
  rw [readUri, huri, hpieces, if_neg (List.cons_ne_nil _ _),
    if_neg fun hnil => hsome (List.map_eq_nil_iff.mp hnil), readSections_text hoptions]
  rfl

/-- The path and the options of a description are found, and the string is restored. -/
theorem streamParse_options (opus : OpusEncoder) (mtu : Int) (s : ParsedStream) {path : List UInt8}
    {options : List StreamOption} (hzero : 0 ∉ path) (hquestion : 63 ∉ path) (hpath : path ≠ [])
    (hoptions : ∀ option ∈ options, option.WellFormed) (hsome : options ≠ []) :
    ∃ s', s' = options.foldl StreamOption.apply { s with protocol := some .pipe, fname := some path } ∧
      streamParse opus mtu s (streamUri path options) =
        (opusInitEncoder opus { s'.opuscodecCtx with bitrate := 96000 }
          (longToInt (mtu - ipoverheadBytes - sizeofHdr - chunkHeaderSize - udpoverheadBytes))
          s'.samples s'.channels).map fun opuscodecCtx =>
            (true, { s' with raw := streamUri path options ++ [0], opuscodecCtx }) := by
  refine ⟨_, rfl, ?_⟩
  obtain ⟨hpipe, hdelimiter⟩ := strstr_streamUri path options
  have hplain : 0 ∉ streamUri path options := by
    simp only [streamUri, List.mem_append, List.mem_cons, not_or]
    exact ⟨by decide, by decide, hzero, by decide, zero_not_mem_optionsText hoptions⟩
  obtain ⟨buffer, hparse⟩ := streamParse_reads opus mtu s hplain hpipe hdelimiter
  have hread := readUri_text s hquestion hpath hoptions hsome
  rw [hparse]
  change ((readUri s (path ++ 63 :: optionsText options)).map _ >>= _) = _
  rw [hread]
  change initParsed opus mtu (streamUri path options) (withRaw buffer (true, _)) = _
  rw [initParsed, withRaw, if_pos rfl]
  generalize opusInitEncoder opus _ _ _ _ = call
  cases call with
  | error fault => rfl
  | ok ctx => rfl

def fourOptions (bufferMs : Nat) (codec : StreamCodec) (name : List UInt8) (rate bits channels : Nat) :
    List StreamOption :=
  [.bufferMs bufferMs, .codec codec, .name name, .sampleformat rate bits channels]

/-- Each of the four is about another part of the stream, so their order does not matter. -/
theorem applyAll_fourOptions {bufferMs : Nat} {codec : StreamCodec} {name : List UInt8}
    {rate bits channels : Nat} {options : List StreamOption}
    (horder : options.Perm (fourOptions bufferMs codec name rate bits channels)) (s : ParsedStream) :
    options.foldl StreamOption.apply s = { s with
      readMs := bufferMs, codec := some codec, name := some name
      samples := rate, samplesize := (bits / 8 : Nat), channels := channels } := by
  have hcommute : ∀ first ∈ fourOptions bufferMs codec name rate bits channels,
      ∀ second ∈ fourOptions bufferMs codec name rate bits channels, ∀ s,
        StreamOption.apply (StreamOption.apply s first) second =
          StreamOption.apply (StreamOption.apply s second) first := by
    intro first hfirst second hsecond s
    simp only [fourOptions, List.mem_cons, List.not_mem_nil, or_false] at hfirst hsecond
    rcases hfirst with rfl | rfl | rfl | rfl <;> rcases hsecond with rfl | rfl | rfl | rfl <;> rfl
  rw [← horder.symm.foldl_eq' hcommute s]
  rfl

/-- Reading a description gives back what was written, in whatever order the options are. -/
theorem streamParse_streamUri (opus : OpusEncoder) (mtu : Int) (s : ParsedStream)
    {path name : List UInt8} {codec : StreamCodec} {bufferMs rate bits channels : Nat}
    {options : List StreamOption}
    (hpath : path ≠ [] ∧ 0 ∉ path ∧ 63 ∉ path)
    (hname : name ≠ [] ∧ 0 ∉ name ∧ 38 ∉ name ∧ 61 ∉ name)
    (hcodec : codec = .opus ∨ codec = .pcm)
    (hranges : bufferMs < 2 ^ 63 ∧ rate < 2 ^ 63 ∧ bits < 2 ^ 63 ∧ bits / 8 < 2 ^ 31 ∧ channels < 2 ^ 31)
    (horder : options.Perm (fourOptions bufferMs codec name rate bits channels))
    (hencoder : 0 ≤ opus.create rate channels ∧ 0 ≤ opus.setBitrate 96000) :
    ∃ s', streamParse opus mtu s (streamUri path options) = .ok (true, s') ∧
      s'.protocol = some .pipe ∧ s'.fname = some path ∧ s'.name = some name ∧ s'.codec = some codec ∧
      s'.readMs = bufferMs ∧ s'.samples = rate ∧ s'.channels = channels ∧
      s'.samplesize = (bits / 8 : Nat) ∧ s'.raw = streamUri path options ++ [0] := by
  obtain ⟨hbufferMs, hrate, hbits, hsize, hchannels⟩ := hranges
  have hoptions : ∀ option ∈ options, option.WellFormed := by
    intro option hmem
    have hfour := horder.subset hmem
    simp only [fourOptions, List.mem_cons, List.not_mem_nil, or_false] at hfour
    rcases hfour with rfl | rfl | rfl | rfl
    · exact hbufferMs
    · rintro rfl
      rcases hcodec with hcodec | hcodec
      · cases hcodec
      · cases hcodec
    · exact ⟨hname.2.1, hname.2.2.1, hname.2.2.2, hname.1⟩
    · exact ⟨hrate, hbits, hsize, hchannels⟩
  have hsome : options ≠ [] := by
    rintro rfl
    exact absurd horder.length_eq (by simp [fourOptions])
  obtain ⟨s', hs', hparse⟩ := streamParse_options opus mtu s hpath.2.1 hpath.2.2 hpath.1 hoptions hsome
  rw [applyAll_fourOptions horder] at hs'
  subst hs'
  have hinit : ∀ (ctx : OpuscodecCtx) (mss : Int), ctx.bitrate = 96000 →
      opusInitEncoder opus ctx mss rate channels = .ok { ctx with encoder := true, mss } := by
    intro ctx mss hbitrate
    rw [opusInitEncoder, hbitrate, if_neg (not_lt.mpr hencoder.1), if_neg (not_lt.mpr hencoder.2)]
    rfl
  rw [hinit _ _ rfl] at hparse
  exact ⟨_, hparse, rfl, rfl, rfl, rfl, rfl, rfl, rfl, rfl, rfl⟩

/-- An encoder that can always be created. -/
def anyEncoder : OpusEncoder := ⟨fun _ _ => 0, fun _ => 0⟩

/-- `"/tmp/snapfifo"`. -/
def pathSnapfifo : List UInt8 := [47, 116, 109, 112, 47, 115, 110, 97, 112, 102, 105, 102, 111]

def textDefault : List UInt8 := [100, 101, 102, 97, 117, 108, 116]

/-- The description of the test `parse_streaminfo`, with the options in the opposite order. -/
theorem streamParse_streamUri_reversed :
    ∃ s', streamParse anyEncoder 1500 emptyStream
        (streamUri pathSnapfifo (fourOptions 20 .opus textDefault 48000 16 2).reverse) = .ok (true, s') ∧
      s'.fname = some pathSnapfifo ∧ s'.name = some textDefault ∧ s'.readMs = 20 ∧ s'.samplesize = 2 := by
  obtain ⟨s', hparse, -, hfname, hname, -, hreadMs, -, -, hsize, -⟩ :=
    streamParse_streamUri anyEncoder 1500 emptyStream
      (by decide : pathSnapfifo ≠ [] ∧ 0 ∉ pathSnapfifo ∧ 63 ∉ pathSnapfifo) (by decide) (.inl rfl)
      (by decide) (List.reverse_perm (fourOptions 20 .opus textDefault 48000 16 2))
      (by decide)
  exact ⟨s', hparse, hfname, hname, hreadMs, hsize⟩

end Snapcastc
