import Snapcastc.LibraryBytes

/-! The line buffer of a control connection (`socket_handle_client`, `handle_line`). Every call reads
behind the bytes kept so far and then looks for a line end from there to the end of the buffer. A
found line end hands over everything that was read; what an earlier line left in the buffer is still
there, and is searched as well. -/

namespace Snapcastc.Socket

open Bytes

def linebufferSize : Nat := 1024

/-- `'\n'`. -/
def lineFeed : UInt8 := 10

/-- `'\r'`. -/
def carriageReturn : UInt8 := 13

/-- `socketclient`, without the descriptor. -/
structure Socketclient where
  line : Nat → UInt8
  lineOffset : Nat

/-- The client `socket_handle_in` creates. -/
def fresh : Socketclient := ⟨fun _ => 0, 0⟩

inductive ReadResult where
  | data (bytes : List UInt8)
  | eof
  | error (again : Bool)

/-- The string that starts at the beginning of the buffer. -/
def cString (line : Nat → UInt8) : List UInt8 :=
  ((List.range linebufferSize).map line).takeWhile (· ≠ 0)

/-- The loop that looks for a line end, from `offset` to the end of the buffer. -/
def hasLineEnd (line : Nat → UInt8) (offset : Nat) : Bool :=
  (List.range' offset (linebufferSize - 1 - offset)).any fun i =>
    line i == lineFeed || line i == carriageReturn

/-- `handle_line`, by its result; `parse` tells which lines `jsonrpc_parse_string` accepts. -/
def handleLine (parse : List UInt8 → Bool) (line : List UInt8) : Int :=
  if line.isEmpty then 0 else if parse line then 1 else 0

/-- What one call does: its result, the client afterwards and the lines passed to `handle_line`. -/
structure Handled where
  ret : Int
  client : Socketclient
  lines : List (List UInt8)

def socketHandleClient (parse : List UInt8 → Bool) (sc : Socketclient) (result : ReadResult) :
    Handled :=
  if sc.lineOffset < linebufferSize then
    match result with
    | .data bytes =>
        let line := store sc.line sc.lineOffset bytes
        if hasLineEnd line sc.lineOffset then
          let line := Function.update line (sc.lineOffset + bytes.length) 0
          if handleLine parse (cString line) < 0 then
            ⟨-1, ⟨line, sc.lineOffset⟩, [cString line]⟩
          else ⟨0, ⟨Function.update line 0 0, 0⟩, [cString line]⟩
        else ⟨0, ⟨line, sc.lineOffset + bytes.length⟩, []⟩
    | .eof => ⟨-1, sc, []⟩
    | .error again => ⟨if again then 0 else -1, sc, []⟩
  else ⟨-1, sc, []⟩

/-- The lines a sequence of reads passes to `handle_line`. A negative result closes the connection. -/
def feed (parse : List UInt8 → Bool) : Socketclient → List (List UInt8) → List (List UInt8)
  | _, [] => []
  | sc, bytes :: reads =>
      let handled := socketHandleClient parse sc (.data bytes)
      handled.lines ++ if handled.ret < 0 then [] else feed parse handled.client reads

/-- The pieces are possible results of the successive reads: none is empty and none is longer than
the room that `socket_handle_client` offers. -/
def Possible (parse : List UInt8 → Bool) : Socketclient → List (List UInt8) → Prop
  | _, [] => True
  | sc, bytes :: reads =>
      bytes ≠ [] ∧ bytes.length ≤ linebufferSize - sc.lineOffset - 1 ∧
        Possible parse (socketHandleClient parse sc (.data bytes)).client reads

/-- A line as a control client sends it, without its line feed. -/
structure IsLine (line : List UInt8) : Prop where
  nonempty : line ≠ []
  short : line.length < linebufferSize - 1
  noLineFeed : lineFeed ∉ line
  noCarriageReturn : carriageReturn ∉ line
  noNul : (0 : UInt8) ∉ line

/-- The bytes of a sequence of lines on the wire. -/
def wire (lines : List (List UInt8)) : List UInt8 := lines.flatMap (· ++ [lineFeed])

/-- A string up to its trailing line feed. -/
def chomp (line : List UInt8) : List UInt8 :=
  if line.getLast? = some lineFeed then line.dropLast else line

/-- Where the furthest line feed in the buffer ends after a line of `total` bytes was handled, when it
ended at `furthest` before. The terminating NUL is written behind the line. -/
def leftOver (furthest total : Nat) : Nat := if total + 1 < furthest then furthest else total

/-- The reads respect the lines: no read goes beyond the end of a line, and a read that stops inside
a line stops behind every line feed that earlier lines have left in the buffer. `furthest` is where
the last such line feed ends, `position` is what earlier reads have brought of the current line. -/
def RespectsLines : (furthest position : Nat) → List (List UInt8) → Prop
  | _, _, [] => True
  | furthest, position, bytes :: reads =>
      if lineFeed ∈ bytes then
        lineFeed ∉ bytes.dropLast ∧
          RespectsLines (leftOver furthest (position + bytes.length)) 0 reads
      else furthest ≤ position + bytes.length ∧
        RespectsLines furthest (position + bytes.length) reads

/-- What is passed to `handle_line` when a read completes a line. -/
def handedOver (sc : Socketclient) (bytes : List UInt8) : List UInt8 :=
  cString (Function.update (store sc.line sc.lineOffset bytes) (sc.lineOffset + bytes.length) 0)

/-- The client after a read that completed a line. -/
def emptied (sc : Socketclient) (bytes : List UInt8) : Socketclient :=
  ⟨Function.update
    (Function.update (store sc.line sc.lineOffset bytes) (sc.lineOffset + bytes.length) 0) 0 0, 0⟩

/-- The client after a read that completed no line. -/
def extended (sc : Socketclient) (bytes : List UInt8) : Socketclient :=
  ⟨store sc.line sc.lineOffset bytes, sc.lineOffset + bytes.length⟩

theorem emptied_line (sc : Socketclient) (bytes : List UInt8) :
    (emptied sc bytes).line = Function.update
      (Function.update (store sc.line sc.lineOffset bytes) (sc.lineOffset + bytes.length) 0) 0 0 := rfl

theorem extended_line (sc : Socketclient) (bytes : List UInt8) :
    (extended sc bytes).line = store sc.line sc.lineOffset bytes := rfl

theorem handleLine_nonneg (parse : List UInt8 → Bool) (line : List UInt8) :
    ¬handleLine parse line < 0 := by
  unfold handleLine
  split_ifs <;> decide

/-- A string of the buffer ends at the first NUL. -/
theorem cString_eq {line : Nat → UInt8} {text : List UInt8} (hlen : text.length < linebufferSize)
    (htext : ∀ i (hi : i < text.length), line i = text.get ⟨i, hi⟩) (hnul : (0 : UInt8) ∉ text)
    (hend : line text.length = 0) : cString line = text := by
  have hsplit : List.range linebufferSize =
      List.range text.length ++ List.range' text.length (linebufferSize - text.length) := by
    have happend := @List.range'_append_1 0 text.length (linebufferSize - text.length)
    rw [Nat.zero_add, Nat.add_sub_cancel' hlen.le] at happend
    rw [List.range_eq_range', List.range_eq_range', happend]
  have hfront : (List.range text.length).map line = text := by
    apply List.ext_get
    · simp
    · intro i hi hi'
      simp [htext i hi']
  obtain ⟨rest, hrest⟩ : ∃ rest, linebufferSize - text.length = rest + 1 :=
    ⟨linebufferSize - text.length - 1, by omega⟩
  rw [cString, hsplit, List.map_append, hfront, hrest, List.range'_succ, List.map_cons, hend,
    List.takeWhile_append_of_pos]
  · simp
  · intro byte hbyte
    simp only [ne_eq, decide_not, Bool.not_eq_eq_eq_not, Bool.not_true, decide_eq_false_iff_not]
    rintro rfl
    exact hnul hbyte

theorem hasLineEnd_iff (line : Nat → UInt8) (offset : Nat) :
    hasLineEnd line offset = true ↔ ∃ i, offset ≤ i ∧ i < linebufferSize - 1 ∧
      (line i = lineFeed ∨ line i = carriageReturn) := by
  simp only [hasLineEnd, List.any_eq_true, List.mem_range'_1, Bool.or_eq_true, beq_iff_eq]
  constructor
  · rintro ⟨i, ⟨hlo, hhi⟩, hend⟩
    exact ⟨i, hlo, by omega, hend⟩
  · rintro ⟨i, hlo, hhi, hend⟩
    exact ⟨i, ⟨hlo, by omega⟩, hend⟩

/-- A line end in the buffer hands over all that was read. -/
theorem socketHandleClient_of_lineEnd (parse : List UInt8 → Bool) {sc : Socketclient}
    {bytes : List UInt8} (hoffset : sc.lineOffset < linebufferSize)
    (hend : hasLineEnd (store sc.line sc.lineOffset bytes) sc.lineOffset = true) :
    socketHandleClient parse sc (.data bytes) = ⟨0, emptied sc bytes, [handedOver sc bytes]⟩ := by
  simp [socketHandleClient, emptied, handedOver, hoffset, hend, handleLine_nonneg]

/-- Without a line end the bytes are kept. -/
theorem socketHandleClient_of_noLineEnd (parse : List UInt8 → Bool) {sc : Socketclient}
    {bytes : List UInt8} (hoffset : sc.lineOffset < linebufferSize)
    (hend : hasLineEnd (store sc.line sc.lineOffset bytes) sc.lineOffset = false) :
    socketHandleClient parse sc (.data bytes) = ⟨0, extended sc bytes, []⟩ := by
  simp [socketHandleClient, extended, hoffset, hend]

/-! ### A connection in the middle of a line -/

/-- The client is in the middle of the first of `lines`: its first `position` bytes are in the
buffer, and behind them the furthest line end that is left from earlier lines ends at `furthest`. -/
structure Receiving (sc : Socketclient) (lines : List (List UInt8)) (furthest position : Nat) :
    Prop where
  offset : sc.lineOffset = position
  inLine : position ≤ (lines.headD []).length
  fits : furthest < linebufferSize
  received : ∀ i < position, (wire lines)[i]? = some (sc.line i)
  lineEnd_lt : ∀ i, position ≤ i → i < linebufferSize - 1 →
    sc.line i = lineFeed ∨ sc.line i = carriageReturn → i < furthest
  lineFeed_last : position < furthest → sc.line (furthest - 1) = lineFeed

theorem wire_cons (line : List UInt8) (lines : List (List UInt8)) :
    wire (line :: lines) = line ++ lineFeed :: wire lines := by
  simp [wire]

theorem wire_noNul {lines : List (List UInt8)} (hlines : ∀ line ∈ lines, IsLine line) :
    (0 : UInt8) ∉ wire lines := by
  simp only [wire, List.mem_flatMap, List.mem_append, List.mem_singleton, not_exists, not_and,
    not_or]
  intro line hline
  exact ⟨(hlines line hline).noNul, by decide⟩

theorem wire_lineFeed (line : List UInt8) (lines : List (List UInt8)) :
    (wire (line :: lines))[line.length]? = some lineFeed := by
  simp [wire_cons]

namespace Receiving

variable {sc : Socketclient} {lines : List (List UInt8)} {furthest position : Nat}
variable {bytes rest : List UInt8}

theorem stream_getElem? (hstream : (wire lines).drop position = bytes ++ rest) {i : Nat}
    (hpos : position ≤ i) (hi : i < position + bytes.length) :
    (wire lines)[i]? = bytes[i - position]? := by
  have hdrop : ((wire lines).drop position)[i - position]? = (wire lines)[i]? := by
    rw [List.getElem?_drop, Nat.add_sub_cancel' hpos]
  rw [← hdrop, hstream, List.getElem?_append_left (by omega)]

/-- After a read the buffer holds the stream from the start of the line on. -/
theorem stored (hsc : Receiving sc lines furthest position)
    (hstream : (wire lines).drop position = bytes ++ rest) (i : Nat)
    (hi : i < position + bytes.length) :
    (wire lines)[i]? = some (store sc.line sc.lineOffset bytes i) := by
  rw [hsc.offset]
  by_cases hlt : i < position
  · rw [store_of_lt hlt]
    exact hsc.received i hlt
  · have hin : i - position < bytes.length := by omega
    rw [stream_getElem? hstream (by omega) hi, store, if_pos (by omega),
      List.getD_eq_getElem?_getD, List.getElem?_eq_getElem hin]
    rfl

theorem length_le (hstream : (wire lines).drop position = bytes ++ rest) (hbytes : bytes ≠ []) :
    position + bytes.length ≤ (wire lines).length := by
  have hlength := congrArg List.length hstream
  have hpos := List.length_pos_of_ne_nil hbytes
  rw [List.length_drop, List.length_append] at hlength
  omega

/-- What is handed over is the stream from the start of the line to the end of the read. -/
theorem handedOver_eq (hsc : Receiving sc lines furthest position)
    (hlines : ∀ line ∈ lines, IsLine line)
    (hstream : (wire lines).drop position = bytes ++ rest) (hbytes : bytes ≠ [])
    (hroom : position + bytes.length < linebufferSize) :
    handedOver sc bytes = (wire lines).take (position + bytes.length) := by
  have hlength : ((wire lines).take (position + bytes.length)).length = position + bytes.length := by
    rw [List.length_take]
    exact Nat.min_eq_left (length_le hstream hbytes)
  apply cString_eq
  · rw [hlength]
    exact hroom
  · intro i hi
    have hi' : i < position + bytes.length := hlength ▸ hi
    have hstored := hsc.stored hstream i hi'
    rw [hsc.offset] at hstored ⊢
    rw [Function.update_of_ne hi'.ne]
    apply Option.some.inj
    rw [← hstored, List.get_eq_getElem, ← List.getElem?_eq_getElem,
      List.getElem?_take_of_lt hi']
  · intro hmem
    exact wire_noNul hlines (List.mem_of_mem_take hmem)
  · rw [hlength, hsc.offset, Function.update_self]

section Line

variable {line : List UInt8}

theorem position_le (hsc : Receiving sc (line :: lines) furthest position) :
    position ≤ line.length := hsc.inLine

/-- A read without a line feed stays inside the line. -/
theorem inside (hsc : Receiving sc (line :: lines) furthest position)
    (hstream : (wire (line :: lines)).drop position = bytes ++ rest) (hfeed : lineFeed ∉ bytes) :
    position + bytes.length ≤ line.length := by
  by_contra hlt
  push Not at hlt
  have hget := stream_getElem? hstream hsc.position_le hlt
  rw [wire_lineFeed] at hget
  exact hfeed (List.mem_of_getElem? hget.symm)

/-- A read with a line feed covers the end of the line. -/
theorem beyond (hline : IsLine line)
    (hstream : (wire (line :: lines)).drop position = bytes ++ rest) (hfeed : lineFeed ∈ bytes) :
    line.length < position + bytes.length := by
  obtain ⟨j, hj, hget⟩ := List.getElem_of_mem hfeed
  by_contra hle
  push Not at hle
  have hwire := stream_getElem? hstream (Nat.le_add_right position j) (by omega)
  rw [Nat.add_sub_cancel_left, List.getElem?_eq_getElem hj, hget, wire_cons,
    List.getElem?_append_left (by omega)] at hwire
  exact hline.noLineFeed (List.mem_of_getElem? hwire)

/-- The bytes of the line in the buffer are no line ends. -/
theorem not_lineEnd (hsc : Receiving sc (line :: lines) furthest position) (hline : IsLine line)
    (hstream : (wire (line :: lines)).drop position = bytes ++ rest) {i : Nat}
    (hi : i < position + bytes.length) (hin : i < line.length) :
    ¬(store sc.line sc.lineOffset bytes i = lineFeed ∨
      store sc.line sc.lineOffset bytes i = carriageReturn) := by
  have hstored := hsc.stored hstream i hi
  rw [wire_cons, List.getElem?_append_left hin] at hstored
  have hmem := List.mem_of_getElem? hstored
  rintro (heq | heq)
  · exact hline.noLineFeed (heq ▸ hmem)
  · exact hline.noCarriageReturn (heq ▸ hmem)

/-- A read inside the line, behind all old line ends, completes nothing. -/
theorem hasLineEnd_of_inside (hsc : Receiving sc (line :: lines) furthest position)
    (hline : IsLine line) (hstream : (wire (line :: lines)).drop position = bytes ++ rest)
    (hinside : position + bytes.length ≤ line.length)
    (hbehind : furthest ≤ position + bytes.length) :
    hasLineEnd (store sc.line sc.lineOffset bytes) sc.lineOffset = false := by
  rw [Bool.eq_false_iff, Ne, hasLineEnd_iff]
  rintro ⟨i, hlo, hhi, hend⟩
  rw [hsc.offset] at hlo
  by_cases hi : i < position + bytes.length
  · exact hsc.not_lineEnd hline hstream hi (by omega) hend
  · rw [hsc.offset, store_of_ge (by omega)] at hend
    have := hsc.lineEnd_lt i hlo hhi hend
    omega

/-- A read inside the line that stops before an old line end is handed over. -/
theorem hasLineEnd_of_old (hsc : Receiving sc (line :: lines) furthest position)
    (hbefore : position + bytes.length < furthest) :
    hasLineEnd (store sc.line sc.lineOffset bytes) sc.lineOffset = true := by
  have hfits := hsc.fits
  rw [hasLineEnd_iff, hsc.offset]
  refine ⟨furthest - 1, by omega, by omega, .inl ?_⟩
  rw [store_of_ge (by omega)]
  exact hsc.lineFeed_last (by omega)

/-- A read that covers the end of the line is handed over. -/
theorem hasLineEnd_of_beyond (hsc : Receiving sc (line :: lines) furthest position)
    (hline : IsLine line) (hstream : (wire (line :: lines)).drop position = bytes ++ rest)
    (hbeyond : line.length < position + bytes.length) :
    hasLineEnd (store sc.line sc.lineOffset bytes) sc.lineOffset = true := by
  have hstored := hsc.stored hstream line.length hbeyond
  rw [wire_lineFeed] at hstored
  rw [hasLineEnd_iff]
  refine ⟨line.length, ?_, hline.short, .inl (Option.some.inj hstored).symm⟩
  rw [hsc.offset]
  exact hsc.position_le

/-- The client keeps receiving the line when nothing was completed. -/
theorem extend (hsc : Receiving sc (line :: lines) furthest position)
    (hstream : (wire (line :: lines)).drop position = bytes ++ rest)
    (hinside : position + bytes.length ≤ line.length)
    (hbehind : furthest ≤ position + bytes.length) :
    Receiving (extended sc bytes) (line :: lines) furthest (position + bytes.length) where
  offset := congrArg (· + bytes.length) hsc.offset
  inLine := hinside
  fits := hsc.fits
  received := hsc.stored hstream
  lineEnd_lt := by
    intro i hlo hhi hend
    rw [extended_line, hsc.offset, store_of_ge hlo] at hend
    exact hsc.lineEnd_lt i (by omega) hhi hend
  lineFeed_last := by omega

/-- After a read that ends with the line, the client waits for the next one. -/
theorem next (hsc : Receiving sc (line :: lines) furthest position) (hline : IsLine line)
    (hstream : (wire (line :: lines)).drop position = bytes ++ rest)
    (hexact : position + bytes.length = line.length + 1) :
    Receiving (emptied sc bytes) lines (leftOver furthest (position + bytes.length)) 0 := by
  have hnonempty := List.length_pos_of_ne_nil hline.nonempty
  have hshort := hline.short
  have hfits := hsc.fits
  have hbuffer : ∀ i, i ≠ 0 → i ≠ position + bytes.length →
      (emptied sc bytes).line i = store sc.line sc.lineOffset bytes i := by
    intro i hzero hend
    rw [emptied_line, Function.update_of_ne hzero, hsc.offset, Function.update_of_ne hend]
  refine ⟨rfl, Nat.zero_le _, ?_, by omega, ?_, ?_⟩
  · unfold leftOver
    split_ifs <;> omega
  · intro i _ hhi hend
    have hzero : i ≠ 0 := by
      rintro rfl
      simp [emptied, lineFeed, carriageReturn] at hend
    have hnul : i ≠ position + bytes.length := by
      rintro rfl
      rw [emptied_line, Function.update_of_ne hzero, hsc.offset, Function.update_self] at hend
      simp [lineFeed, carriageReturn] at hend
    unfold leftOver
    by_cases hi : i < position + bytes.length
    · split_ifs <;> omega
    · rw [hbuffer i hzero hnul, hsc.offset, store_of_ge (by omega)] at hend
      have := hsc.lineEnd_lt i (by omega) hhi hend
      rw [if_pos (by omega)]
      exact this
  · intro _
    unfold leftOver
    split_ifs with hold
    · rw [hbuffer _ (by omega) (by omega), hsc.offset, store_of_ge (by omega)]
      exact hsc.lineFeed_last (by omega)
    · have hstored := hsc.stored hstream line.length (by omega)
      rw [wire_lineFeed] at hstored
      rw [show position + bytes.length - 1 = line.length by omega, hbuffer _ (by omega) (by omega)]
      exact (Option.some.inj hstored).symm

end Line

end Receiving

/-! ### Whole connections -/

theorem feed_of_lineEnd (parse : List UInt8 → Bool) {sc : Socketclient} {bytes : List UInt8}
    (hoffset : sc.lineOffset < linebufferSize)
    (hend : hasLineEnd (store sc.line sc.lineOffset bytes) sc.lineOffset = true)
    (reads : List (List UInt8)) :
    feed parse sc (bytes :: reads) =
      handedOver sc bytes :: feed parse (emptied sc bytes) reads := by
  rw [feed, socketHandleClient_of_lineEnd parse hoffset hend]
  rfl

theorem chomp_of_noLineFeed {text : List UInt8} (hfeed : lineFeed ∉ text) : chomp text = text := by
  rw [chomp, if_neg]
  intro hlast
  exact hfeed (List.mem_of_getLast? hlast)

theorem chomp_append_lineFeed (text : List UInt8) : chomp (text ++ [lineFeed]) = text := by
  simp [chomp]

/-- A string that starts with a line feed is no line. -/
theorem not_isLine_chomp (text : List UInt8) : ¬IsLine (chomp (lineFeed :: text)) := by
  intro hline
  cases text with
  | nil => exact hline.nonempty rfl
  | cons byte text =>
      refine hline.noLineFeed ?_
      unfold chomp
      split_ifs
      · exact List.mem_cons_self
      · exact List.mem_cons_self

theorem lineFeed_mem_dropLast {text : List UInt8} {i : Nat} (hget : text[i]? = some lineFeed)
    (hi : i + 1 < text.length) : lineFeed ∈ text.dropLast := by
  refine List.mem_of_getElem? (i := i) ?_
  rw [List.getElem?_dropLast, if_pos (by omega), hget]

/-- A string with a line feed before its last byte is no line. -/
theorem lineFeed_mem_chomp {text : List UInt8} {i : Nat} (hget : text[i]? = some lineFeed)
    (hi : i + 1 < text.length) : lineFeed ∈ chomp text := by
  unfold chomp
  split_ifs
  · exact lineFeed_mem_dropLast hget hi
  · exact List.mem_of_getElem? hget

theorem cString_cons (line : Nat → UInt8) (hfirst : line 0 ≠ 0) :
    ∃ text, cString line = line 0 :: text := by
  rw [cString, show linebufferSize = 1023 + 1 from rfl, List.range_succ_eq_map, List.map_cons,
    List.takeWhile_cons_of_pos (by simpa using hfirst)]
  exact ⟨_, rfl⟩

/-- A line feed that the next read starts with makes a line of its own. -/
theorem feed_of_lineFeed_first (parse : List UInt8 → Bool) {sc : Socketclient}
    {reads : List (List UInt8)} {rest : List UInt8} (hoffset : sc.lineOffset = 0)
    (hpossible : Possible parse sc reads) (hstream : reads.flatten = lineFeed :: rest) :
    ∃ text texts, feed parse sc reads = (lineFeed :: text) :: texts := by
  cases reads with
  | nil => simp at hstream
  | cons bytes reads =>
      cases bytes with
      | nil => exact absurd rfl hpossible.1
      | cons byte bytes =>
          obtain rfl : byte = lineFeed := by
            rw [List.flatten_cons, List.cons_append] at hstream
            exact (List.cons.inj hstream).1
          have hfirst : store sc.line sc.lineOffset (lineFeed :: bytes) 0 = lineFeed := by
            rw [hoffset]
            rfl
          have hend : hasLineEnd (store sc.line sc.lineOffset (lineFeed :: bytes)) sc.lineOffset =
              true := by
            rw [hasLineEnd_iff]
            exact ⟨0, hoffset.le, by decide, .inl hfirst⟩
          have hbyte : Function.update (store sc.line sc.lineOffset (lineFeed :: bytes))
              (sc.lineOffset + (lineFeed :: bytes).length) 0 0 = lineFeed := by
            rw [Function.update_of_ne (by simp), hfirst]
          obtain ⟨text, htext⟩ := cString_cons _ (hbyte.trans_ne (by decide))
          rw [feed_of_lineEnd parse (by rw [hoffset]; decide) hend, handedOver, htext, hbyte]
          exact ⟨text, _, rfl⟩

section Reads

variable {parse : List UInt8 → Bool} {sc : Socketclient} {line bytes : List UInt8}
variable {lines reads : List (List UInt8)} {furthest position : Nat}

/-- A read that is handed over inside a line breaks it. -/
theorem feed_ne_of_early (hsc : Receiving sc (line :: lines) furthest position)
    (hlines : ∀ text ∈ line :: lines, IsLine text)
    (hpossible : Possible parse sc (bytes :: reads))
    (hstream : (wire (line :: lines)).drop position = bytes ++ reads.flatten)
    (hinside : position + bytes.length ≤ line.length)
    (hbefore : position + bytes.length < furthest) :
    (feed parse sc (bytes :: reads)).map chomp ≠ line :: lines := by
  have hline := hlines line List.mem_cons_self
  have hoffset : sc.lineOffset < linebufferSize := by
    have := hsc.fits
    have := hsc.offset
    omega
  have hend := hsc.hasLineEnd_of_old hbefore
  have hnext := hpossible.2.2
  rw [socketHandleClient_of_lineEnd parse hoffset hend] at hnext
  have htaken : handedOver sc bytes = line.take (position + bytes.length) := by
    rw [hsc.handedOver_eq hlines hstream hpossible.1 (by have := hsc.fits; omega), wire_cons,
      List.take_append_of_le_length hinside]
  rw [feed_of_lineEnd parse hoffset hend, htaken, List.map_cons, chomp_of_noLineFeed
    (fun hmem => hline.noLineFeed (List.mem_of_mem_take hmem))]
  intro heq
  obtain ⟨hfirst, hothers⟩ := List.cons.inj heq
  -- The whole line was handed over without its line feed, which is still to come.
  have hwhole : position + bytes.length = line.length := by
    have := congrArg List.length hfirst
    rw [List.length_take] at this
    omega
  have hrest : reads.flatten = lineFeed :: wire lines := by
    have hdrop : (wire (line :: lines)).drop (position + bytes.length) = reads.flatten := by
      rw [← List.drop_drop, hstream, List.drop_left]
    rw [← hdrop, hwhole, wire_cons, List.drop_left]
  obtain ⟨text, texts, htexts⟩ := feed_of_lineFeed_first parse rfl hnext hrest
  rw [htexts, List.map_cons] at hothers
  exact not_isLine_chomp text (hlines _ (List.mem_cons_of_mem _ (hothers ▸ List.mem_cons_self)))

/-- A read that goes beyond the end of a line glues the next line to it. -/
theorem feed_ne_of_beyond (hsc : Receiving sc (line :: lines) furthest position)
    (hlines : ∀ text ∈ line :: lines, IsLine text)
    (hpossible : Possible parse sc (bytes :: reads))
    (hstream : (wire (line :: lines)).drop position = bytes ++ reads.flatten)
    (hbeyond : line.length + 1 < position + bytes.length) :
    (feed parse sc (bytes :: reads)).map chomp ≠ line :: lines := by
  have hline := hlines line List.mem_cons_self
  have hroom := hpossible.2.1
  have hoffset := hsc.offset
  have hshort := hline.short
  have hposition := hsc.position_le
  have hlength := Receiving.length_le hstream hpossible.1
  rw [feed_of_lineEnd parse (by omega) (hsc.hasLineEnd_of_beyond hline hstream (by omega)),
    hsc.handedOver_eq hlines hstream hpossible.1 (by omega), List.map_cons]
  intro heq
  refine hline.noLineFeed ((List.cons.inj heq).1 ▸ lineFeed_mem_chomp (i := line.length) ?_ ?_)
  · rw [List.getElem?_take_of_lt (by omega), wire_lineFeed]
  · rw [List.length_take]
    omega

/-- A read that ends with the line brings the rest of the line and its line feed. -/
theorem Receiving.bytes_eq (hstream : (wire (line :: lines)).drop position = bytes ++ reads.flatten)
    (hposition : position ≤ line.length) (hexact : position + bytes.length = line.length + 1) :
    bytes = line.drop position ++ [lineFeed] := by
  have htake := congrArg (List.take bytes.length) hstream
  rw [List.take_left, wire_cons, List.drop_append_of_le_length hposition] at htake
  rw [← htake, List.take_append, List.length_drop,
    List.take_of_length_le (by rw [List.length_drop]; omega),
    show bytes.length - (line.length - position) = 1 by omega]
  rfl

/-- The lines handed over from the middle of a line on are the lines sent exactly when the reads
respect the lines. -/
theorem Receiving.feed_iff (hsc : Receiving sc lines furthest position)
    (hlines : ∀ text ∈ lines, IsLine text) (hpossible : Possible parse sc reads)
    (hstream : (wire lines).drop position = reads.flatten) :
    (feed parse sc reads).map chomp = lines ↔ RespectsLines furthest position reads := by
  induction reads generalizing sc lines furthest position with
  | nil =>
      cases lines with
      | nil => simp [feed, RespectsLines]
      | cons line lines =>
          have hposition := hsc.position_le
          have hlength := congrArg List.length hstream
          simp [wire_cons] at hlength
          omega
  | cons bytes reads ih =>
      obtain ⟨hbytes, hroom, hnext⟩ := hpossible
      rw [List.flatten_cons] at hstream
      cases lines with
      | nil =>
          rw [wire, List.flatMap_nil, List.drop_nil] at hstream
          exact absurd (List.append_eq_nil_iff.mp hstream.symm).1 hbytes
      | cons line lines =>
          have hline := hlines line List.mem_cons_self
          have hoffset := hsc.offset
          have hposition := hsc.position_le
          have hshort := hline.short
          have hrest : (wire (line :: lines)).drop (position + bytes.length) = reads.flatten := by
            rw [← List.drop_drop, hstream, List.drop_left]
          rw [RespectsLines]
          by_cases hfeed : lineFeed ∈ bytes
          · have hbeyond := Receiving.beyond hline hstream hfeed
            have hend := hsc.hasLineEnd_of_beyond hline hstream hbeyond
            rw [if_pos hfeed]
            by_cases hexact : position + bytes.length = line.length + 1
            · rw [socketHandleClient_of_lineEnd parse (by omega) hend] at hnext
              have hwire : (wire lines).drop 0 = reads.flatten := by
                rw [← hrest, hexact, wire_cons, ← List.drop_drop, List.drop_left]
                rfl
              have hdropLast : lineFeed ∉ bytes.dropLast := by
                rw [Receiving.bytes_eq hstream hposition hexact, List.dropLast_concat]
                exact fun hmem => hline.noLineFeed (List.mem_of_mem_drop hmem)
              rw [feed_of_lineEnd parse (by omega) hend,
                hsc.handedOver_eq hlines hstream hbytes (by omega), hexact, wire_cons,
                List.take_length_add_append, List.map_cons, List.take_succ_cons, List.take_zero,
                chomp_append_lineFeed, List.cons_eq_cons, ← hexact,
                ih (hsc.next hline hstream hexact)
                  (fun text htext => hlines text (List.mem_cons_of_mem _ htext)) hnext hwire]
              simp [hdropLast]
            · have hne := feed_ne_of_beyond hsc hlines ⟨hbytes, hroom, hnext⟩ hstream (by omega)
              have hget := Receiving.stream_getElem? hstream hposition hbeyond
              rw [wire_lineFeed] at hget
              simp [hne, lineFeed_mem_dropLast hget.symm (by omega)]
          · have hinside := hsc.inside hstream hfeed
            rw [if_neg hfeed]
            by_cases hbehind : furthest ≤ position + bytes.length
            · have hend := hsc.hasLineEnd_of_inside hline hstream hinside hbehind
              have hcall := socketHandleClient_of_noLineEnd parse (by omega) hend
              rw [hcall] at hnext
              rw [feed, hcall]
              simp only [List.nil_append, Int.lt_irrefl, if_false]
              rw [ih (hsc.extend hstream hinside hbehind) hlines hnext hrest]
              simp [hbehind]
            · have hne := feed_ne_of_early hsc hlines ⟨hbytes, hroom, hnext⟩ hstream hinside
                (by omega)
              simp [hne, hbehind]

end Reads

theorem fresh_receiving (lines : List (List UInt8)) : Receiving fresh lines 0 0 where
  offset := rfl
  inLine := Nat.zero_le _
  fits := by decide
  received := by omega
  lineEnd_lt := by
    rintro i - - (hend | hend)
    · exact absurd hend (by simp [fresh, lineFeed])
    · exact absurd hend (by simp [fresh, carriageReturn])
  lineFeed_last := by omega

/-- A control client's lines are passed to `handle_line` one by one and in order exactly when no read
goes beyond the end of a line and every read that stops inside a line stops behind the line feeds
that earlier lines have left in the buffer. -/
theorem handledLines_iff (parse : List UInt8 → Bool) (lines reads : List (List UInt8))
    (hlines : ∀ line ∈ lines, IsLine line) (hpossible : Possible parse fresh reads)
    (hstream : reads.flatten = wire lines) :
    (feed parse fresh reads).map chomp = lines ↔ RespectsLines 0 0 reads :=
  (fresh_receiving lines).feed_iff hlines hpossible hstream.symm

instance (line : List UInt8) : Decidable (IsLine line) :=
  decidable_of_iff (line ≠ [] ∧ line.length < linebufferSize - 1 ∧ lineFeed ∉ line ∧
      carriageReturn ∉ line ∧ (0 : UInt8) ∉ line)
    ⟨fun ⟨h₁, h₂, h₃, h₄, h₅⟩ => ⟨h₁, h₂, h₃, h₄, h₅⟩, fun ⟨h₁, h₂, h₃, h₄, h₅⟩ => ⟨h₁, h₂, h₃, h₄, h₅⟩⟩

instance decidablePossible (parse : List UInt8 → Bool) :
    (sc : Socketclient) → (reads : List (List UInt8)) → Decidable (Possible parse sc reads)
  | _, [] => inferInstanceAs (Decidable True)
  | sc, bytes :: reads =>
      have := decidablePossible parse (socketHandleClient parse sc (.data bytes)).client reads
      inferInstanceAs (Decidable (bytes ≠ [] ∧ bytes.length ≤ linebufferSize - sc.lineOffset - 1 ∧
        Possible parse (socketHandleClient parse sc (.data bytes)).client reads))

/-- Two lines, of which the first comes in two reads. -/
theorem handledLines_split :
    (feed (fun _ => true) fresh [[97], [98, 10], [99, 10]]).map chomp = [[97, 98], [99]] :=
  (handledLines_iff (fun _ => true) [[97, 98], [99]] [[97], [98, 10], [99, 10]]
    (by decide) (by decide +kernel) (by decide)).mpr (by simp [RespectsLines, lineFeed])

/-- Two lines in one read are taken for one line; and the first byte of a line that comes in two
reads is taken for a line when the line before it was longer. -/
theorem handledLines_depend_on_reads :
    (∀ line ∈ [[97, 98], [99, 100]], IsLine line) ∧
    (Possible (fun _ => true) fresh [[97, 98, 10, 99, 100, 10]] ∧
      [[97, 98, 10, 99, 100, 10]].flatten = wire [[97, 98], [99, 100]] ∧
      (feed (fun _ => true) fresh [[97, 98, 10, 99, 100, 10]]).map chomp =
        [[97, 98, 10, 99, 100]]) ∧
    (Possible (fun _ => true) fresh [[97, 98, 10], [99], [100, 10]] ∧
      [[97, 98, 10], [99], [100, 10]].flatten = wire [[97, 98], [99, 100]] ∧
      (feed (fun _ => true) fresh [[97, 98, 10], [99], [100, 10]]).map chomp =
        [[97, 98], [99], [100]]) := by
  decide +kernel

end Snapcastc.Socket
