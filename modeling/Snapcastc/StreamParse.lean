import Snapcastc.LibraryTokens
import Snapcastc.Stream

/-! How the description of a stream on the command line is read (`stream_parse` in `stream.c`). -/

namespace Snapcastc

open Tokens

/-- `strstr`: where a string begins inside another one. -/
def strstr (needle : List UInt8) : List UInt8 → Option Nat
  | [] => if needle = [] then some 0 else none
  | c :: rest => if needle.isPrefixOf (c :: rest) then some 0 else (strstr needle rest).map (· + 1)

/-- `strtok_r` with one delimiter: the buffer, the token and `saveptr` afterwards. -/
def strtokR (buffer : List UInt8) (string : Option Nat) (delimiter : UInt8) (saveptr : Option Nat) :
    Except Fault (List UInt8 × Option Nat × Option Nat) :=
  match string.or saveptr with
  | none => throw .nullPointer
  | some pos =>
      let (buffer, token, next) := nextToken buffer [delimiter] pos
      pure (buffer, token, some next)

def isspace (c : UInt8) : Bool := c == 32 || (9 ≤ c && c ≤ 13)

def isdigit (c : UInt8) : Bool := 48 ≤ c && c ≤ 57

/-- The number that the digits at the beginning of a string denote. -/
def digitsValue (string : List UInt8) : Nat :=
  (string.takeWhile isdigit).foldl (fun value c => 10 * value + (c.toNat - 48)) 0

/-- `atol`. A number that is too big becomes the next one that is not. -/
def atol (string : List UInt8) : Int :=
  let string := string.dropWhile isspace
  if string.head? = some 45 then max (-(digitsValue string.tail : Int)) (-2 ^ 63)
  else if string.head? = some 43 then min (digitsValue string.tail : Int) (2 ^ 63 - 1)
  else min (digitsValue string : Int) (2 ^ 63 - 1)

/-- `atol` at a pointer. -/
def atolAt (buffer : List UInt8) : Option Nat → Except Fault Int
  | none => throw .nullPointer
  | some pos => pure (atol (stringAt buffer pos))

/-- A `long` that is stored in an `int`. -/
def longToInt (x : Int) : Int := x.bmod (2 ^ 32)

/-! ### The stream -/

/-- `enum codec`. -/
inductive StreamCodec where
  | pcm
  | opus
  | invalid
  deriving DecidableEq, Repr

/-- `enum protocol`. -/
inductive StreamProtocol where
  | pipe
  deriving DecidableEq, Repr

/-- `opuscodec_ctx` of the server. -/
structure OpuscodecCtx where
  encoder : Bool
  bitrate : UInt32
  mss : Int
  deriving DecidableEq, Repr

/-- What the server uses of libopus: the error of `opus_encoder_create`, by the rate and the number of
channels, and the result of setting the bit rate. -/
structure OpusEncoder where
  create : Int → Int → Int
  setBitrate : UInt32 → Int

/-- `stream`, as far as `stream_parse` sets it. `raw` is the memory of that string. -/
structure ParsedStream where
  raw : List UInt8
  protocol : Option StreamProtocol
  codec : Option StreamCodec
  fname : Option (List UInt8)
  name : Option (List UInt8)
  readMs : Int
  samples : Int
  samplesize : Int
  channels : Int
  opuscodecCtx : OpuscodecCtx
  deriving DecidableEq, Repr

/-- The stream that `main` hands to `stream_parse`. -/
def emptyStream : ParsedStream := ⟨[0], none, none, none, none, 0, 0, 0, 0, ⟨false, 0, 0⟩⟩

def textOpus : List UInt8 := [111, 112, 117, 115]

def textPcm : List UInt8 := [112, 99, 109]

def textPipe : List UInt8 := [112, 105, 112, 101]

def protocolDelimiter : List UInt8 := [58, 47, 47]

def keyBufferMs : List UInt8 := [98, 117, 102, 102, 101, 114, 95, 109, 115]

def keyCodec : List UInt8 := [99, 111, 100, 101, 99]

def keyName : List UInt8 := [110, 97, 109, 101]

def keySampleformat : List UInt8 := [115, 97, 109, 112, 108, 101, 102, 111, 114, 109, 97, 116]

def parseCodec (codec : List UInt8) : StreamCodec :=
  if codec = textOpus then .opus else if codec = textPcm then .pcm else .invalid

def ipoverheadBytes : Int := 40

def udpoverheadBytes : Int := 8

def opusInitEncoder (opus : OpusEncoder) (ctx : OpuscodecCtx) (mss samples channels : Int) :
    Except Fault OpuscodecCtx :=
  if opus.create samples channels < 0 then
    throw (.exitError "failed to create an encoder: %s\nfor parameters: mss %lu samples %lu channels %lu\n")
  else if opus.setBitrate ctx.bitrate < 0 then throw (.exitError "failed to set bitrate: %s\n")
  else pure { ctx with encoder := true, mss }

/-- What `stream_parse` does with a key and its value. It returns `valuectx` as well, or nothing when the key
is unknown. -/
def parseSection (s : ParsedStream) (token : Nat) (value valuectx : Option Nat) :
    Except Fault (Option (ParsedStream × Option Nat)) :=
  let key := stringAt s.raw token
  if key = keyBufferMs then do
    let readMs ← atolAt s.raw value
    pure (some ({ s with readMs }, valuectx))
  else if key = keyCodec then
    match value with
    | none => throw .nullPointer
    | some pos => pure (some ({ s with codec := some (parseCodec (stringAt s.raw pos)) }, valuectx))
  else if key = keyName then pure (some ({ s with name := value.map (stringAt s.raw) }, valuectx))
  else if key = keySampleformat then do
    let (raw, value, valuectx) ← strtokR s.raw value 58 none
    let samples ← atolAt raw value
    let (raw, value, valuectx) ← strtokR raw none 58 valuectx
    let bits ← atolAt raw value
    let (raw, value, valuectx) ← strtokR raw none 58 valuectx
    let channels ← atolAt raw value
    pure (some ({ s with
      raw
      samples
      samplesize := longToInt (bits.tdiv 8)
      channels := longToInt channels }, valuectx))
  else pure none

/-- The loop of `stream_parse` over the options, in at most so many rounds. It returns false at an unknown
option. -/
def parseSections : Nat → ParsedStream → Option Nat → Option Nat → Except Fault (Bool × ParsedStream)
  | 0, _, _, _ => throw .endless
  | rounds + 1, s, optionctx, valuectx => do
      let (raw, token, optionctx) ← strtokR s.raw none 38 optionctx
      let (raw, _, valuectx) ← strtokR raw token 61 valuectx
      let (raw, value, valuectx) ← strtokR raw none 61 valuectx
      let s := { s with raw }
      match token with
      | none => pure (true, s)
      | some token => do
          match ← parseSection s token value valuectx with
          | none => pure (false, s)
          | some (s, valuectx) => parseSections rounds s optionctx valuectx

/-- `stream_parse`. Every round of the loop reads on in the string. -/
def streamParse (opus : OpusEncoder) (mtu : Int) (s : ParsedStream) (raw : List UInt8) :
    Except Fault (Bool × ParsedStream) :=
  let s := { s with raw := raw ++ [0] }
  if strncmp raw textPipe 4 ≠ 0 then pure (false, s)
  else
    match strstr protocolDelimiter raw with
    | none => throw .nullPointer
    | some delimiter => do
        let (buffer, token, optionctx) ←
          strtokR s.raw (some (delimiter + protocolDelimiter.length)) 63 none
        let s := { s with
          protocol := some .pipe
          raw := buffer
          fname := token.map (stringAt buffer) }
        let (parsed, s) ←
          if token.isSome then parseSections (raw.length + 2) s optionctx none else pure (true, s)
        if parsed then do
          let opuscodecCtx ← opusInitEncoder opus { s.opuscodecCtx with bitrate := 96000 }
            (longToInt (mtu - ipoverheadBytes - sizeofHdr - chunkHeaderSize - udpoverheadBytes))
            s.samples s.channels
          pure (true, { s with raw := raw ++ [0], opuscodecCtx })
        else pure (false, s)

/-- The end of `stream_parse`: the string is restored and the encoder is created, unless an option was not
known. -/
def initParsed (opus : OpusEncoder) (mtu : Int) (raw : List UInt8) (result : Bool × ParsedStream) :
    Except Fault (Bool × ParsedStream) :=
  if result.1 then do
    let opuscodecCtx ← opusInitEncoder opus { result.2.opuscodecCtx with bitrate := 96000 }
      (longToInt (mtu - ipoverheadBytes - sizeofHdr - chunkHeaderSize - udpoverheadBytes))
      result.2.samples result.2.channels
    pure (true, { result.2 with raw := raw ++ [0], opuscodecCtx })
  else pure (false, result.2)

/-- The part of `stream_parse` that reads the string, from behind the delimiter on. -/
def parseUri (s : ParsedStream) (raw : List UInt8) (delimiter : Nat) : Except Fault (Bool × ParsedStream) := do
  let (buffer, token, optionctx) ←
    strtokR (raw ++ [0]) (some (delimiter + protocolDelimiter.length)) 63 none
  let s := { s with
    protocol := some .pipe
    raw := buffer
    fname := token.map (stringAt buffer) }
  if token.isSome then parseSections (raw.length + 2) s optionctx none else pure (true, s)

/-- `stream_parse` reads the string, and then creates the encoder. -/
theorem streamParse_eq (opus : OpusEncoder) (mtu : Int) (s : ParsedStream) (raw : List UInt8) :
    streamParse opus mtu s raw =
      if strncmp raw textPipe 4 ≠ 0 then .ok (false, { s with raw := raw ++ [0] })
      else match strstr protocolDelimiter raw with
        | none => .error .nullPointer
        | some delimiter => parseUri s raw delimiter >>= initParsed opus mtu raw := by
  unfold streamParse parseUri
  dsimp only
  split_ifs
  · rfl
  · cases strstr protocolDelimiter raw with
    | none => rfl
    | some delimiter =>
        dsimp only
        cases strtokR (raw ++ [0]) (some (delimiter + protocolDelimiter.length)) 63 none with
        | error fault => rfl
        | ok cut =>
            rw [except_ok_bind, except_ok_bind]
            split_ifs
            · rfl
            · rfl

end Snapcastc
