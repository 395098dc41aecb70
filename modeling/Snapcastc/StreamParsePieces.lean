import Snapcastc.StreamParse

/-! `stream_parse` reads the pieces of a string: `strtok_r` cuts them off in place, and what the reader does
depends on nothing else. -/

namespace Snapcastc

open Tokens

/-- The key of an option. The characters `=` before it belong to it. -/
def sectionKey (piece : List UInt8) : List UInt8 := piece.takeWhile (· = 61) ++ (pieces 61 piece).headD []

def sectionValue (piece : List UInt8) : Option (List UInt8) := (pieces 61 piece)[1]?

/-- What a sample format does. Only its first three pieces are read. -/
def readSampleformat (s : ParsedStream) (value : List UInt8) : Except Fault (Option ParsedStream) :=
  match pieces 58 value with
  | samples :: bits :: channels :: _ =>
      pure (some { s with
        samples := atol samples
        samplesize := longToInt ((atol bits).tdiv 8)
        channels := longToInt (atol channels) })
  | _ => throw .nullPointer

/-- What an option does. It does nothing when the key is unknown. -/
def readSection (s : ParsedStream) (piece : List UInt8) : Except Fault (Option ParsedStream) :=
  if sectionKey piece = keyBufferMs then
    match sectionValue piece with
    | none => throw .nullPointer
    | some value => pure (some { s with readMs := atol value })
  else if sectionKey piece = keyCodec then
    match sectionValue piece with
    | none => throw .nullPointer
    | some value => pure (some { s with codec := some (parseCodec value) })
  else if sectionKey piece = keyName then pure (some { s with name := sectionValue piece })
  else if sectionKey piece = keySampleformat then readSampleformat s ((sectionValue piece).getD [])
  else pure none

/-- What the options do, one after the other. -/
def readSections : List (List UInt8) → ParsedStream → Except Fault (Bool × ParsedStream)
  | [], s => pure (true, s)
  | piece :: rest, s => do
      match ← readSection s piece with
      | none => pure (false, s)
      | some s => readSections rest s

def uriOptions (uri : List UInt8) : List (List UInt8) := pieces 38 (behindPiece 63 uri)

/-- What a description does, from behind the delimiter on. -/
def readUri (s : ParsedStream) (uri : List UInt8) : Except Fault (Bool × ParsedStream) :=
  let s := { s with protocol := some .pipe, fname := (pieces 63 uri).head? }
  if pieces 63 uri = [] then pure (true, s)
  else if uriOptions uri = [] then throw .nullPointer
  else readSections (uriOptions uri) s

def withRaw (raw : List UInt8) (result : Bool × ParsedStream) : Bool × ParsedStream :=
  (result.1, { result.2 with raw })

/-- What is read does not depend on the string in the stream. -/
theorem readSection_raw (s : ParsedStream) (raw piece : List UInt8) :
    readSection { s with raw } piece = (readSection s piece).map (Option.map fun s' => { s' with raw }) := by
  unfold readSection
  split_ifs
  · cases sectionValue piece <;> rfl
  · cases sectionValue piece <;> rfl
  · rfl
  · unfold readSampleformat
    rcases pieces 58 ((sectionValue piece).getD []) with - | ⟨samples, - | ⟨bits, - | ⟨channels, more⟩⟩⟩ <;> rfl
  · rfl

theorem readSections_raw (options : List (List UInt8)) (s : ParsedStream) (raw : List UInt8) :
    readSections options { s with raw } = (readSections options s).map (withRaw raw) := by
  induction options generalizing s with
  | nil => rfl
  | cons piece rest ih =>
      rw [readSections, readSections, readSection_raw]
      rcases readSection s piece with fault | - | s'
      · rfl
      · rfl
      · exact ih s'

/-! ### Cutting in place -/

/-- With some pointer to go on from, the call returns. -/
theorem strtokR_returns (buffer : List UInt8) (delimiter : UInt8) {saveptr : Option Nat}
    (hsome : saveptr ≠ none) :
    ∃ buffer' token next, strtokR buffer none delimiter saveptr = .ok (buffer', token, some next) := by
  obtain ⟨pos, rfl⟩ := Option.ne_none_iff_exists'.mp hsome
  exact ⟨_, _, _, rfl⟩

section Strtok

variable (buffer : List UInt8) (string saveptr : Option Nat) (delimiter : UInt8) {pos : Nat}

/-- `strtok_r` finds the first piece behind the pointer, or none. -/
theorem strtokR_pieces (hpos : string.or saveptr = some pos) :
    (pieces delimiter (stringAt buffer pos) = [] ∧
      strtokR buffer string delimiter saveptr =
        .ok (buffer, none, some (pos + (stringAt buffer pos).length))) ∨
    ∃ buffer' start next, Cut delimiter buffer pos buffer' start next ∧
      strtokR buffer string delimiter saveptr = .ok (buffer', some start, some next) := by
  rw [strtokR, hpos]
  dsimp only
  rcases nextToken_pieces delimiter buffer pos with ⟨hnone, hcall⟩ | ⟨buffer', start, next, hcut, hcall⟩
  · rw [hcall]
    exact .inl ⟨hnone, rfl⟩
  · rw [hcall]
    exact .inr ⟨_, _, _, hcut, rfl⟩

end Strtok

/-- The key and the value of an option are cut off: where they stand, and that nothing behind the option is
written. -/
structure SectionCut (buffer : List UInt8) (start : Nat) (piece raw : List UInt8) (value : Option Nat) :
    Prop where
  key_eq : stringAt raw start = sectionKey piece
  value_eq : value.map (stringAt raw) = sectionValue piece
  value_le : ∀ pos ∈ value, pos + (stringAt raw pos).length ≤ start + piece.length
  drop_eq : ∀ n, start + piece.length ≤ n → raw.drop n = buffer.drop n

theorem strtokR_section (buffer : List UInt8) (start : Nat) (valuectx : Option Nat) :
    ∃ raw₁ token ctx raw value next,
      strtokR buffer (some start) 61 valuectx = .ok (raw₁, token, some ctx) ∧
      strtokR raw₁ none 61 (some ctx) = .ok (raw, value, some next) ∧
      SectionCut buffer start (stringAt buffer start) raw value := by
  rcases strtokR_pieces buffer (some start) valuectx 61 rfl with
    ⟨hnone, hfirst⟩ | ⟨raw₁, token, ctx, hcut, hfirst⟩
  · -- nothing but delimiters
    have hend : stringAt buffer (start + (stringAt buffer start).length) = [] := by
      rw [stringAt_add (le_refl _), List.drop_length]
    rcases strtokR_pieces buffer none (some (start + (stringAt buffer start).length)) 61 rfl with
      ⟨-, hsecond⟩ | ⟨raw, value, next, hcut, -⟩
    · refine ⟨_, _, _, _, _, _, hfirst, hsecond, ?_⟩
      exact {
        key_eq := by rw [sectionKey, hnone, takeWhile_of_pieces hnone, List.headD_nil, List.append_nil]
        value_eq := by rw [sectionValue, hnone]; rfl
        value_le := fun pos hpos => absurd hpos (Option.not_mem_none pos)
        drop_eq := fun n _ => rfl }
    · have hpieces := hcut.pieces_eq
      rw [hend, pieces_nil] at hpieces
      exact absurd hpieces.symm (List.cons_ne_nil _ _)
  · have hpieces := hcut.pieces_eq
    have hkey : stringAt raw₁ start = sectionKey (stringAt buffer start) := by
      rw [hcut.string_eq, sectionKey, hpieces, List.headD_cons]
    rcases strtokR_pieces raw₁ none (some ctx) 61 rfl with ⟨hnone, hsecond⟩ | ⟨raw, value, next, hcut', hsecond⟩
    · refine ⟨_, _, _, _, _, _, hfirst, hsecond, ?_⟩
      exact {
        key_eq := hkey
        value_eq := by rw [sectionValue, hpieces, hnone]; rfl
        value_le := fun pos hpos => absurd hpos (Option.not_mem_none pos)
        drop_eq := fun n hn => hcut.drop_eq (hcut.next_le_stop.trans hn) }
    · have hpieces' := hcut'.pieces_eq
      have hkept : stringAt raw start = stringAt raw₁ start := by
        apply hcut'.stringAt_before
        have hbefore := hcut.start_eq
        rcases hcut.terminated with hlt | hnil
        · rw [hcut.string_eq, List.length_append]
          omega
        · rw [hnil, pieces_nil] at hpieces'
          exact absurd hpieces'.symm (List.cons_ne_nil _ _)
      have hstop := hcut.next_le
      have hstop' := hcut'.next_le_stop
      refine ⟨_, _, _, _, _, _, hfirst, hsecond, ?_⟩
      exact {
        key_eq := by rw [hkept, hkey]
        value_eq := by rw [sectionValue, hpieces, hpieces']; rfl
        value_le := by
          intro pos hpos
          have hle := hcut'.token_le
          rw [Option.mem_some_iff] at hpos
          rw [← hpos]
          omega
        drop_eq := fun n hn => (hcut'.drop_eq (by omega)).trans (hcut.drop_eq (by omega)) }

/-! ### Reading -/

/-- The numbers of a sample format, which `stream_parse` cuts off and reads one after the other. -/
def parseSampleformat (s : ParsedStream) (value : Option Nat) :
    Except Fault (Option (ParsedStream × Option Nat)) := do
  let (raw, value, valuectx) ← strtokR s.raw value 58 none
  let samples ← atolAt raw value
  let (raw, value, valuectx) ← strtokR raw none 58 valuectx
  let bits ← atolAt raw value
  let (raw, value, valuectx) ← strtokR raw none 58 valuectx
  let channels ← atolAt raw value
  pure (some ({ s with
    raw
    samples
    samplesize := longToInt (bits.tdiv 8)
    channels := longToInt channels }, valuectx))

theorem parseSampleformat_reads (s : ParsedStream) (pos : Nat) :
    ∃ raw ctx, (∀ n, pos + (stringAt s.raw pos).length ≤ n → raw.drop n = s.raw.drop n) ∧
      parseSampleformat s (some pos) =
        (readSampleformat s (stringAt s.raw pos)).map (Option.map fun s' => ({ s' with raw }, some ctx)) := by
  rw [parseSampleformat, readSampleformat]
  rcases strtokR_pieces s.raw (some pos) none 58 rfl with ⟨hnone, hfirst⟩ | ⟨raw₁, first, ctx₁, hcut₁, hfirst⟩
  · refine ⟨s.raw, 0, fun _ _ => rfl, ?_⟩
    rw [hfirst, hnone]
    rfl
  have hstop₁ := hcut₁.next_le
  have hread : ∀ raw pos, atolAt raw (some pos) = .ok (atol (stringAt raw pos)) := fun _ _ => rfl
  rw [hfirst, hcut₁.pieces_eq, except_ok_bind]
  dsimp only
  rw [hread, except_ok_bind]
  rcases strtokR_pieces raw₁ none (some ctx₁) 58 rfl with ⟨hnone, hsecond⟩ | ⟨raw₂, second, ctx₂, hcut₂, hsecond⟩
  · refine ⟨s.raw, 0, fun _ _ => rfl, ?_⟩
    rw [hsecond, hnone]
    rfl
  have hstop₂ := hcut₂.next_le
  rw [hsecond, hcut₂.pieces_eq, except_ok_bind]
  dsimp only
  rw [hread, except_ok_bind]
  rcases strtokR_pieces raw₂ none (some ctx₂) 58 rfl with ⟨hnone, hthird⟩ | ⟨raw₃, third, ctx₃, hcut₃, hthird⟩
  · refine ⟨s.raw, 0, fun _ _ => rfl, ?_⟩
    rw [hthird, hnone]
    rfl
  have hstop₃ := hcut₃.next_le_stop
  refine ⟨raw₃, ctx₃, ?_, ?_⟩
  · intro n hn
    calc raw₃.drop n
        = raw₂.drop n := hcut₃.drop_eq (by omega)
      _ = raw₁.drop n := hcut₂.drop_eq (by omega)
      _ = s.raw.drop n := hcut₁.drop_eq (by omega)
  · rw [hthird, hcut₃.pieces_eq]
    rfl

/-- An option does what its pieces say. -/
theorem parseSection_reads {s : ParsedStream} {buffer piece : List UInt8} {start : Nat} {value : Option Nat}
    (next : Nat) (hcut : SectionCut buffer start piece s.raw value) :
    ∃ raw ctx, (∀ n, start + piece.length ≤ n → raw.drop n = buffer.drop n) ∧
      parseSection s start value (some next) =
        (readSection s piece).map (Option.map fun s' => ({ s' with raw }, some ctx)) := by
  have hvalue := hcut.value_eq
  unfold parseSection readSection
  dsimp only
  rw [hcut.key_eq, ← hvalue]
  split_ifs
  · refine ⟨s.raw, next, hcut.drop_eq, ?_⟩
    cases value <;> rfl
  · refine ⟨s.raw, next, hcut.drop_eq, ?_⟩
    cases value <;> rfl
  · exact ⟨s.raw, next, hcut.drop_eq, rfl⟩
  · change ∃ raw ctx, _ ∧ parseSampleformat s value = _
    cases value with
    | none => exact ⟨s.raw, next, hcut.drop_eq, rfl⟩
    | some pos =>
        obtain ⟨raw, ctx, hdrop, hread⟩ := parseSampleformat_reads s pos
        have hle := hcut.value_le pos rfl
        exact ⟨raw, ctx, fun n hn => (hdrop n (hle.trans hn)).trans (hcut.drop_eq n hn), hread⟩
  · exact ⟨s.raw, next, hcut.drop_eq, rfl⟩

/-- The loop does what the pieces of its string say. The context of the values is there, unless no option is
left. -/
theorem parseSections_reads (rounds : Nat) (s : ParsedStream) (pos : Nat) (valuectx : Option Nat)
    (hrounds : (pieces 38 (stringAt s.raw pos)).length < rounds)
    (hvaluectx : pieces 38 (stringAt s.raw pos) = [] → valuectx ≠ none) :
    ∃ raw, parseSections rounds s (some pos) valuectx =
      (readSections (pieces 38 (stringAt s.raw pos)) s).map (withRaw raw) := by
  induction rounds generalizing s pos valuectx with
  | zero => exact absurd hrounds (Nat.not_lt_zero _)
  | succ rounds ih =>
      rcases strtokR_pieces s.raw none (some pos) 38 rfl with
        ⟨hnone, hoption⟩ | ⟨raw₁, start, next, hcut, hoption⟩
      · obtain ⟨raw₁, token₁, ctx₁, hfirst⟩ := strtokR_returns s.raw 61 (hvaluectx hnone)
        obtain ⟨raw₂, token₂, ctx₂, hsecond⟩ := strtokR_returns raw₁ 61 (Option.some_ne_none ctx₁)
        refine ⟨raw₂, ?_⟩
        rw [parseSections, hoption, hnone, except_ok_bind]
        dsimp only
        rw [hfirst, except_ok_bind]
        dsimp only
        rw [hsecond]
        rfl
      · obtain ⟨raw₂, token, ctx₂, raw₃, value, ctx₃, hkey, hvalue, hsection⟩ :=
          strtokR_section raw₁ start valuectx
        obtain ⟨raw, ctx, hdrop, hparse⟩ := parseSection_reads (s := { s with raw := raw₃ }) ctx₃ hsection
        rw [readSection_raw] at hparse
        rw [hcut.pieces_eq] at hrounds ⊢
        have hnext : stringAt raw next = stringAt raw₁ next := stringAt_congr (hdrop next hcut.token_le)
        rw [parseSections, hoption, except_ok_bind]
        dsimp only
        rw [hkey, except_ok_bind]
        dsimp only
        rw [hvalue, except_ok_bind]
        dsimp only
        rw [hparse, readSections]
        rcases readSection s (stringAt raw₁ start) with fault | - | s'
        · exact ⟨[], rfl⟩
        · exact ⟨raw₃, rfl⟩
        · obtain ⟨final, hrest⟩ := ih { s' with raw } next (some ctx)
            (by rw [hnext]; exact Nat.lt_of_succ_lt_succ hrounds) (fun _ => Option.some_ne_none _)
          rw [hnext, readSections_raw] at hrest
          refine ⟨final, hrest.trans ?_⟩
          change _ = (readSections _ s').map _
          cases readSections (pieces 38 (stringAt raw₁ next)) s' <;> rfl

/-- The string of a description, behind the delimiter. -/
theorem stringAt_terminated {raw : List UInt8} (hzero : 0 ∉ raw) {pos : Nat} (hpos : pos ≤ raw.length) :
    stringAt (raw ++ [0]) pos = raw.drop pos := by
  have hsplit : raw ++ [0] = raw.take pos ++ (raw.drop pos ++ 0 :: []) := by
    rw [← List.append_assoc, List.take_append_drop]
  exact stringAt_eq hsplit (List.length_take_of_le hpos).symm fun hmem => hzero (List.mem_of_mem_drop hmem)

theorem strstr_le {needle string : List UInt8} {pos : Nat} (hpos : strstr needle string = some pos) :
    pos + needle.length ≤ string.length := by
  induction string generalizing pos with
  | nil =>
      rw [strstr] at hpos
      split_ifs at hpos with hneedle
      rw [← Option.some.inj hpos, hneedle]
      exact le_refl _
  | cons c rest ih =>
      rw [strstr] at hpos
      split_ifs at hpos with hbegin
      · rw [← Option.some.inj hpos, Nat.zero_add]
        exact (List.isPrefixOf_iff_prefix.mp hbegin).length_le
      · obtain ⟨inner, hinner, rfl⟩ := Option.map_eq_some_iff.mp hpos
        have hle := ih hinner
        rw [List.length_cons]
        omega

/-- A description does what its pieces say. -/
theorem parseUri_reads (s : ParsedStream) {raw : List UInt8} (hzero : 0 ∉ raw) {delimiter : Nat}
    (hdelimiter : delimiter + protocolDelimiter.length ≤ raw.length) :
    ∃ buffer, parseUri s raw delimiter =
      (readUri s (raw.drop (delimiter + protocolDelimiter.length))).map (withRaw buffer) := by
  have hstring := stringAt_terminated hzero hdelimiter
  unfold parseUri readUri
  rcases strtokR_pieces (raw ++ [0]) (some (delimiter + protocolDelimiter.length)) none 63 rfl with
    ⟨hnone, hpath⟩ | ⟨buffer, start, next, hcut, hpath⟩
  · rw [hstring] at hnone
    refine ⟨raw ++ [0], ?_⟩
    rw [hpath, hnone]
    rfl
  · have hpieces := hcut.pieces_eq
    have hbehind := hcut.behind_eq
    rw [hstring] at hpieces hbehind
    rw [hpath, except_ok_bind, hpieces]
    dsimp only
    rw [if_pos Option.isSome_some, if_neg (List.cons_ne_nil _ _), uriOptions, ← hbehind]
    by_cases hnil : pieces 38 (stringAt buffer next) = []
    · -- no option: the context of the values is not there in the first round
      rcases strtokR_pieces buffer none (some next) 38 rfl with ⟨-, hoption⟩ | ⟨_, _, _, hcut', -⟩
      · refine ⟨[], ?_⟩
        rw [if_pos hnil, parseSections, hoption]
        rfl
      · rw [hcut'.pieces_eq] at hnil
        exact absurd hnil (List.cons_ne_nil _ _)
    · have hlength : (pieces 38 (stringAt buffer next)).length < raw.length + 2 := by
        have hpiecesLe := length_pieces_le 38 (stringAt buffer next)
        have hbehindLe := length_behindPiece_le 63 (raw.drop (delimiter + protocolDelimiter.length))
        rw [← hbehind, List.length_drop] at hbehindLe
        omega
      obtain ⟨final, hread⟩ := parseSections_reads (raw.length + 2)
        { s with protocol := some .pipe, fname := some (stringAt buffer start), raw := buffer } next none hlength
        (fun hempty => absurd hempty hnil)
      refine ⟨final, ?_⟩
      have hraw := readSections_raw (pieces 38 (stringAt buffer next))
        { s with protocol := some .pipe, fname := some (stringAt buffer start) } buffer
      rw [if_neg hnil]
      refine hread.trans (hraw ▸ ?_)
      change _ = (readSections _ { s with
        protocol := some .pipe, fname := some (stringAt buffer start) }).map _
      cases readSections (pieces 38 (stringAt buffer next)) { s with
        protocol := some .pipe, fname := some (stringAt buffer start) } <;> rfl

/-- `stream_parse` reads the pieces of its string, and then creates the encoder. -/
theorem streamParse_reads (opus : OpusEncoder) (mtu : Int) (s : ParsedStream) {raw : List UInt8}
    (hzero : 0 ∉ raw) (hpipe : strncmp raw textPipe 4 = 0) {delimiter : Nat}
    (hdelimiter : strstr protocolDelimiter raw = some delimiter) :
    ∃ buffer, streamParse opus mtu s raw =
      (readUri s (raw.drop (delimiter + protocolDelimiter.length))).map (withRaw buffer) >>=
        initParsed opus mtu raw := by
  obtain ⟨buffer, hparse⟩ := parseUri_reads s hzero (strstr_le hdelimiter)
  refine ⟨buffer, ?_⟩
  rw [streamParse_eq, if_neg (not_not.mpr hpipe), hdelimiter]
  dsimp only
  rw [hparse]

end Snapcastc
