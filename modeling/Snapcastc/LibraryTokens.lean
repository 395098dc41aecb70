import Mathlib

/-! Strings in a buffer, each ended by a terminator, and how they are cut into tokens in place: the
terminator is written over the delimiter behind a token. -/

namespace Tokens

variable {α : Type} [DecidableEq α] [Zero α]

/-- The string that begins at a position. -/
def stringAt (buffer : List α) (pos : Nat) : List α := (buffer.drop pos).takeWhile (· ≠ 0)

/-- How many characters at the beginning of a string are delimiters (`strspn`). -/
def spanOf (delimiters string : List α) : Nat := (string.takeWhile (· ∈ delimiters)).length

/-- How many characters at the beginning of a string are no delimiters (`strcspn`). -/
def spanUntil (delimiters string : List α) : Nat := (string.takeWhile (· ∉ delimiters)).length

/-- The next token from a position on: the buffer with the token cut off, where the token begins if there
is one, and where to go on. -/
def nextToken (buffer delimiters : List α) (pos : Nat) : List α × Option Nat × Nat :=
  let start := pos + spanOf delimiters (stringAt buffer pos)
  if stringAt buffer start = [] then (buffer, none, start)
  else
    let stop := start + spanUntil delimiters (stringAt buffer start)
    if stringAt buffer stop = [] then (buffer, some start, stop)
    else (buffer.set stop 0, some start, stop + 1)

/-- The pieces of a string between the delimiters, without the empty ones. -/
def pieces (d : α) (string : List α) : List (List α) := (string.splitOn d).filter (· ≠ [])

/-- What remains of a string behind its first piece and the delimiter that ends it. -/
def behindPiece (d : α) (string : List α) : List α :=
  ((string.dropWhile (· = d)).dropWhile (· ≠ d)).drop 1

/-- A token was cut off at a delimiter: what stood in the buffer, and where, before and after. -/
structure Cut (d : α) (buffer : List α) (pos : Nat) (buffer' : List α) (start next : Nat) : Prop where
  pieces_eq : pieces d (stringAt buffer pos) =
    stringAt buffer' start :: pieces d (stringAt buffer' next)
  /-- The string at the old position ends with the token. The delimiters before it are still there. -/
  string_eq : stringAt buffer' pos = (stringAt buffer pos).takeWhile (· = d) ++ stringAt buffer' start
  start_eq : start = pos + ((stringAt buffer pos).takeWhile (· = d)).length
  behind_eq : stringAt buffer' next = behindPiece d (stringAt buffer pos)
  token_le : start + (stringAt buffer' start).length ≤ next
  next_le : next + (stringAt buffer' next).length = pos + (stringAt buffer pos).length
  /-- Behind a token that was not the last one stands its terminator. -/
  terminated : start + (stringAt buffer' start).length < next ∨ stringAt buffer' next = []
  set_eq : buffer' = buffer ∨ ∃ stop, pos ≤ stop ∧ stop < next ∧ buffer' = buffer.set stop 0

/-! ### Strings -/

section Strings

variable {before string rest buffer : List α} {pos : Nat}

/-- What is read at a position behind a part of the buffer is read in the rest of the buffer. -/
theorem stringAt_behind (hpos : pos = before.length) : stringAt (before ++ rest) pos = stringAt rest 0 := by
  rw [stringAt, stringAt, hpos, List.drop_left, List.drop_zero]

/-- A string goes on until the terminator. -/
theorem stringAt_append (hstring : 0 ∉ string) (rest : List α) :
    stringAt (string ++ rest) 0 = string ++ stringAt rest 0 := by
  have hall : ∀ c ∈ string, decide (c ≠ 0) = true := by
    intro c hc
    rw [decide_eq_true_eq]
    rintro rfl
    exact hstring hc
  rw [stringAt, stringAt, List.drop_zero, List.drop_zero, List.takeWhile_append_of_pos hall]

theorem stringAt_terminator (rest : List α) : stringAt (0 :: rest) 0 = [] := by
  rw [stringAt, List.drop_zero, List.takeWhile_cons_of_neg (by simp)]

/-- A string that stands in the buffer is read there. -/
theorem stringAt_eq (hbuffer : buffer = before ++ (string ++ 0 :: rest)) (hpos : pos = before.length)
    (hstring : 0 ∉ string) : stringAt buffer pos = string := by
  rw [hbuffer, stringAt_behind hpos, stringAt_append hstring, stringAt_terminator, List.append_nil]

end Strings

section Positions

variable {buffer buffer' : List α} {pos n : Nat}

/-- A string depends on what stands behind its beginning. -/
theorem stringAt_congr (hdrop : buffer'.drop pos = buffer.drop pos) :
    stringAt buffer' pos = stringAt buffer pos := by
  rw [stringAt, hdrop, stringAt]

theorem zero_not_mem_stringAt (buffer : List α) (pos : Nat) : 0 ∉ stringAt buffer pos := by
  intro hmem
  have hne := List.mem_takeWhile_imp hmem
  rw [decide_eq_true_eq] at hne
  exact hne rfl

/-- What stands behind a position is the string there and what follows it. -/
theorem drop_eq_stringAt (buffer : List α) (pos : Nat) :
    buffer.drop pos = stringAt buffer pos ++ (buffer.drop pos).dropWhile (· ≠ 0) :=
  List.takeWhile_append_dropWhile.symm

/-- Inside a string begins the rest of it. -/
theorem stringAt_add (hn : n ≤ (stringAt buffer pos).length) :
    stringAt buffer (pos + n) = (stringAt buffer pos).drop n := by
  have hall : ∀ c ∈ (stringAt buffer pos).drop n, decide (c ≠ 0) = true := by
    intro c hc
    rw [decide_eq_true_eq]
    rintro rfl
    exact zero_not_mem_stringAt buffer pos (List.mem_of_mem_drop hc)
  have hend : ((buffer.drop pos).dropWhile (· ≠ 0)).takeWhile (· ≠ 0) = [] := by
    rw [List.takeWhile_eq_nil_iff]
    intro hpos
    exact List.dropWhile_get_zero_not _ _ hpos
  calc stringAt buffer (pos + n)
      = ((buffer.drop pos).drop n).takeWhile (· ≠ 0) := by rw [stringAt, List.drop_drop]
    _ = ((stringAt buffer pos).drop n ++ (buffer.drop pos).dropWhile (· ≠ 0)).takeWhile (· ≠ 0) := by
        rw [← List.drop_append_of_le_length hn, ← drop_eq_stringAt]
    _ = (stringAt buffer pos).drop n := by
        rw [List.takeWhile_append_of_pos hall, hend, List.append_nil]

/-- A terminator that is written into a string ends it. -/
theorem stringAt_set (hn : n < (stringAt buffer pos).length) :
    stringAt (buffer.set (pos + n) 0) pos = (stringAt buffer pos).take n := by
  have htake : (buffer.drop pos).take n = (stringAt buffer pos).take n := by
    conv_lhs => rw [drop_eq_stringAt, List.take_append_of_le_length hn.le]
  have hlt : n < (buffer.drop pos).length := by
    rw [drop_eq_stringAt, List.length_append]
    omega
  have hplain : 0 ∉ (stringAt buffer pos).take n := fun hmem =>
    zero_not_mem_stringAt buffer pos (List.mem_of_mem_take hmem)
  have hdrop : (buffer.set (pos + n) 0).drop pos =
      (stringAt buffer pos).take n ++ 0 :: (buffer.drop pos).drop (n + 1) := by
    rw [List.drop_set, if_neg (by omega), Nat.add_sub_cancel_left,
      List.set_eq_take_append_cons_drop, if_pos hlt, htake]
  rw [← List.append_nil ((stringAt buffer pos).take n),
    ← stringAt_terminator ((buffer.drop pos).drop (n + 1)), ← stringAt_append hplain, ← hdrop]
  rfl

/-- A terminator that is written behind a string leaves it as it is. -/
theorem stringAt_set_behind (hn : pos + (stringAt buffer pos).length < n) :
    stringAt (buffer.set n 0) pos = stringAt buffer pos := by
  obtain ⟨k, rfl⟩ : ∃ k, n = pos + ((stringAt buffer pos).length + 1 + k) :=
    ⟨n - (pos + (stringAt buffer pos).length + 1), by omega⟩
  have hplain : 0 ∉ stringAt buffer pos := zero_not_mem_stringAt buffer pos
  have hend : stringAt (((buffer.drop pos).dropWhile (· ≠ 0)).set (1 + k) 0) 0 = [] := by
    have hnot := List.head?_dropWhile_not (fun c => decide (c ≠ 0)) (buffer.drop pos)
    cases htail : (buffer.drop pos).dropWhile (· ≠ 0) with
    | nil => rfl
    | cons c more =>
        rw [htail, List.head?_cons] at hnot
        rw [not_not.mp (of_decide_eq_false hnot), Nat.add_comm, List.set_cons_succ]
        exact stringAt_terminator _
  calc stringAt (buffer.set (pos + ((stringAt buffer pos).length + 1 + k)) 0) pos
      = stringAt ((buffer.drop pos).set ((stringAt buffer pos).length + 1 + k) 0) 0 := by
        rw [stringAt, List.drop_set, if_neg (by omega), Nat.add_sub_cancel_left]
        rfl
    _ = stringAt (stringAt buffer pos ++
          ((buffer.drop pos).dropWhile (· ≠ 0)).set (1 + k) 0) 0 := by
        conv_lhs => rw [drop_eq_stringAt, List.set_append_right _ _ (by omega)]
        congr 3
        omega
    _ = stringAt buffer pos := by rw [stringAt_append hplain, hend, List.append_nil]

end Positions

/-! ### Pieces -/

section Pieces

variable {d : α} {string token : List α}

omit [Zero α] in
/-- A string is cut at each delimiter. -/
theorem pieces_append (d : α) (string rest : List α) :
    pieces d (string ++ d :: rest) = pieces d string ++ pieces d rest := by
  rw [pieces, List.splitOn_append_cons_self, List.filter_append, pieces, pieces]

omit [Zero α] in
theorem pieces_nil (d : α) : pieces d [] = [] := rfl

omit [Zero α] in
/-- A string without delimiters is one piece. -/
theorem pieces_of_not_mem (hnonempty : token ≠ []) (htoken : d ∉ token) : pieces d token = [token] := by
  rw [pieces, List.splitOn_eq_singleton htoken, List.filter_cons_of_pos (by simpa using hnonempty),
    List.filter_nil]

omit [Zero α] in
/-- Delimiters at the beginning belong to no piece. -/
theorem pieces_dropWhile (d : α) (string : List α) :
    pieces d (string.dropWhile (· = d)) = pieces d string := by
  induction string with
  | nil => rfl
  | cons c rest ih =>
      by_cases hc : c = d
      · subst hc
        rw [List.dropWhile_cons_of_pos (by simp), ih]
        exact (pieces_append c [] rest).symm
      · rw [List.dropWhile_cons_of_neg (by simpa using hc)]

omit [Zero α] in
/-- The first piece goes from the first other character to the next delimiter. -/
theorem pieces_of_dropWhile {rest : List α} (hrest : string.dropWhile (· = d) = rest) (hne : rest ≠ []) :
    pieces d string = rest.takeWhile (· ≠ d) :: pieces d (behindPiece d string) := by
  obtain ⟨c, more, hcons⟩ := List.exists_cons_of_ne_nil hne
  have hc : c ≠ d := by
    have hnot := List.head?_dropWhile_not (fun c => decide (c = d)) string
    rw [hrest, hcons, List.head?_cons] at hnot
    exact of_decide_eq_false hnot
  have htoken : rest.takeWhile (· ≠ d) ≠ [] := by
    rw [hcons, List.takeWhile_cons_of_pos (by simpa using hc)]
    exact List.cons_ne_nil _ _
  have hmem : d ∉ rest.takeWhile (· ≠ d) := fun hmem => by simpa using List.mem_takeWhile_imp hmem
  have hsplit : rest = rest.takeWhile (· ≠ d) ++ rest.dropWhile (· ≠ d) :=
    List.takeWhile_append_dropWhile.symm
  rw [← pieces_dropWhile, behindPiece, hrest]
  cases htail : rest.dropWhile (· ≠ d) with
  | nil =>
      rw [htail, List.append_nil] at hsplit
      conv_lhs => rw [hsplit]
      exact pieces_of_not_mem htoken hmem
  | cons c' tail =>
      have hc' : c' = d := by
        have hnot := List.head?_dropWhile_not (fun c => decide (c ≠ d)) rest
        rw [htail, List.head?_cons] at hnot
        exact not_not.mp (of_decide_eq_false hnot)
      rw [htail, hc'] at hsplit
      conv_lhs => rw [hsplit]
      rw [pieces_append, pieces_of_not_mem htoken hmem]
      rfl

omit [Zero α] in
/-- Behind a piece and its delimiter the rest is left. -/
theorem behindPiece_append (hnonempty : token ≠ []) (htoken : d ∉ token) (rest : List α) :
    behindPiece d (token ++ d :: rest) = rest := by
  obtain ⟨c, more, hcons⟩ := List.exists_cons_of_ne_nil hnonempty
  have hc : ¬c = d := by
    rintro rfl
    exact htoken (hcons ▸ List.mem_cons_self)
  have hstart : (token ++ d :: rest).dropWhile (· = d) = token ++ d :: rest := by
    rw [hcons, List.cons_append, List.dropWhile_cons_of_neg (by simpa using hc)]
  have hall : ∀ a ∈ token, decide (a ≠ d) = true := by
    intro a ha
    rw [decide_eq_true_eq]
    rintro rfl
    exact htoken ha
  rw [behindPiece, hstart, List.dropWhile_append_of_pos hall, List.dropWhile_cons_of_neg (by simp)]
  rfl

omit [Zero α] in
theorem length_behindPiece_le (d : α) (string : List α) : (behindPiece d string).length ≤ string.length - 1 := by
  have hlead := (List.dropWhile_sublist (fun c => decide (c = d)) (l := string)).length_le
  have htoken := (List.dropWhile_sublist (fun c => decide (c ≠ d))
    (l := string.dropWhile (· = d))).length_le
  rw [behindPiece, List.length_drop]
  omega

omit [Zero α] in
/-- Each piece takes a character at least. -/
theorem length_pieces_le (d : α) (string : List α) : (pieces d string).length ≤ string.length := by
  induction hlength : string.length using Nat.strong_induction_on generalizing string with
  | _ length ih =>
      by_cases hnil : string.dropWhile (· = d) = []
      · rw [← pieces_dropWhile, hnil]
        exact Nat.zero_le _
      · have hpos : 0 < string.length :=
          (List.length_pos_iff.mpr hnil).trans_le (List.dropWhile_sublist _).length_le
        have hbehind := length_behindPiece_le d string
        have hrest := ih _ (by omega) (behindPiece d string) rfl
        rw [pieces_of_dropWhile rfl hnil, List.length_cons]
        omega

omit [Zero α] in
/-- A string without pieces has nothing but delimiters. -/
theorem takeWhile_of_pieces (hpieces : pieces d string = []) : string.takeWhile (· = d) = string := by
  have hrest : string.dropWhile (· = d) = [] := by
    by_contra hne
    rw [pieces_of_dropWhile rfl hne] at hpieces
    exact List.cons_ne_nil _ _ hpieces
  conv_rhs => rw [← @List.takeWhile_append_dropWhile _ (fun c => decide (c = d)) string, hrest, List.append_nil]

end Pieces

/-! ### Tokens -/

/-- Either there is no token left, or one is cut off. -/
theorem nextToken_pieces (d : α) (buffer : List α) (pos : Nat) :
    (pieces d (stringAt buffer pos) = [] ∧
      nextToken buffer [d] pos = (buffer, none, pos + (stringAt buffer pos).length)) ∨
    ∃ buffer' start next, Cut d buffer pos buffer' start next ∧
      nextToken buffer [d] pos = (buffer', some start, next) := by
  obtain ⟨lead, hlead⟩ : ∃ lead, lead = (stringAt buffer pos).takeWhile (· = d) := ⟨_, rfl⟩
  obtain ⟨rest, hrest⟩ : ∃ rest, (stringAt buffer pos).dropWhile (· = d) = rest := ⟨_, rfl⟩
  have hstring : stringAt buffer pos = lead ++ rest := by
    rw [hlead, ← hrest, List.takeWhile_append_dropWhile]
  have hlength : (stringAt buffer pos).length = lead.length + rest.length := by
    rw [hstring, List.length_append]
  have hspan : spanOf [d] (stringAt buffer pos) = lead.length := by
    simp only [spanOf, List.mem_singleton, hlead]
  have hstart : stringAt buffer (pos + lead.length) = rest := by
    rw [stringAt_add (by omega), hstring, List.drop_left]
  unfold nextToken
  dsimp only
  rw [hspan, hstart]
  by_cases hnil : rest = []
  · left
    rw [if_pos hnil, ← pieces_dropWhile, hrest, hnil, hlength, hnil]
    exact ⟨pieces_nil d, rfl⟩
  right
  have hpieces := pieces_of_dropWhile hrest hnil
  obtain ⟨token, htoken⟩ : ∃ token, rest.takeWhile (· ≠ d) = token := ⟨_, rfl⟩
  obtain ⟨tail, htail⟩ : ∃ tail, rest.dropWhile (· ≠ d) = tail := ⟨_, rfl⟩
  have hsplit : rest = token ++ tail := by rw [← htoken, ← htail, List.takeWhile_append_dropWhile]
  have hrestLength : rest.length = token.length + tail.length := by rw [hsplit, List.length_append]
  have hspanUntil : spanUntil [d] rest = token.length := by
    simp only [spanUntil, List.mem_singleton, ← htoken]
  have hstop : stringAt buffer (pos + lead.length + token.length) = tail := by
    rw [stringAt_add (by rw [hstart]; omega), hstart, hsplit, List.drop_left]
  have hbehindPiece : behindPiece d (stringAt buffer pos) = tail.drop 1 := by
    rw [behindPiece, hrest, htail]
  rw [htoken, hbehindPiece] at hpieces
  rw [if_neg hnil, hspanUntil, hstop]
  by_cases hlast : tail = []
  · -- the last token ends with the string
    have htokenRest : rest = token := by rw [hsplit, hlast, List.append_nil]
    rw [if_pos hlast]
    refine ⟨_, _, _, ?_, rfl⟩
    exact {
      pieces_eq := by rw [hpieces, hstart, hstop, hlast, htokenRest]; rfl
      string_eq := by rw [hstart, ← hlead, hstring]
      start_eq := by rw [hlead]
      behind_eq := by rw [hbehindPiece, hstop, hlast, List.drop_nil]
      token_le := by rw [hstart, htokenRest]
      next_le := by rw [hstop, hlast, hlength, htokenRest, List.length_nil]; omega
      terminated := .inr (hstop.trans hlast)
      set_eq := .inl rfl }
  · obtain ⟨c, more, hcons⟩ := List.exists_cons_of_ne_nil hlast
    have htailLength : tail.length = more.length + 1 := by rw [hcons, List.length_cons]
    obtain ⟨cut, hcut⟩ : ∃ cut, cut = buffer.set (pos + lead.length + token.length) 0 := ⟨_, rfl⟩
    have hbehind : ∀ n, pos + lead.length + token.length + 1 ≤ n → cut.drop n = buffer.drop n := by
      intro n hn
      rw [hcut, List.drop_set_of_lt (by omega)]
    have hcutStart : stringAt cut (pos + lead.length) = token := by
      rw [hcut, stringAt_set (by rw [hstart]; omega), hstart, hsplit, List.take_left]
    have hcutNext : stringAt cut (pos + lead.length + token.length + 1) = more := by
      rw [stringAt_congr (hbehind _ (le_refl _)), stringAt_add (by rw [hstop]; omega), hstop, hcons]
      rfl
    rw [if_neg hlast, ← hcut]
    refine ⟨_, _, _, ?_, rfl⟩
    exact {
      pieces_eq := by rw [hpieces, hcutStart, hcutNext, hcons]; rfl
      string_eq := by
        rw [hcutStart, ← hlead, hcut, Nat.add_assoc, stringAt_set (by omega), hstring, hsplit,
          ← List.append_assoc, ← List.length_append, List.take_left]
      start_eq := by rw [hlead]
      behind_eq := by rw [hbehindPiece, hcutNext, hcons]; rfl
      token_le := by rw [hcutStart]; omega
      next_le := by rw [hcutNext, hlength]; omega
      terminated := .inl (by rw [hcutStart]; omega)
      set_eq := .inr ⟨_, by omega, Nat.lt_succ_self _, hcut⟩ }

section Cut

variable {d : α} {buffer buffer' : List α} {pos start next : Nat}

/-- Behind the token nothing is written. -/
theorem Cut.drop_eq (hcut : Cut d buffer pos buffer' start next) {n : Nat} (hn : next ≤ n) :
    buffer'.drop n = buffer.drop n := by
  rcases hcut.set_eq with rfl | ⟨stop, -, hstop, rfl⟩
  · rfl
  · exact List.drop_set_of_lt (by omega)

/-- The token and what remains lie in the string that was there. -/
theorem Cut.next_le_stop (hcut : Cut d buffer pos buffer' start next) :
    next ≤ pos + (stringAt buffer pos).length := by
  have hnext := hcut.next_le
  omega

/-- Nothing of a string before the position is written. -/
theorem Cut.stringAt_before (hcut : Cut d buffer pos buffer' start next) {n : Nat}
    (hn : n + (stringAt buffer n).length < pos) : stringAt buffer' n = stringAt buffer n := by
  rcases hcut.set_eq with rfl | ⟨stop, hstop, -, rfl⟩
  · rfl
  · exact stringAt_set_behind (hn.trans_le hstop)

end Cut

end Tokens
