import Mathlib

/-! Loops that walk through a buffer: as long as the offset is below a limit, the piece at the offset
is handled and the offset advances by what the piece says. Such a loop ends exactly when every piece
it comes to lets it advance. -/

namespace OffsetLoop

variable {σ : Type}

/-- The loop, with a bound on its rounds; `none` says that the bound was reached. -/
def run (advance : Nat → Nat) (handle : σ → Nat → σ) (limit : Nat) : Nat → σ → Nat → Option σ
  | 0, s, offset => if offset < limit then none else some s
  | rounds + 1, s, offset =>
      if offset < limit then run advance handle limit rounds (handle s offset) (offset + advance offset)
      else some s

/-- The loop comes to an end. -/
def Terminates (advance : Nat → Nat) (handle : σ → Nat → σ) (limit : Nat) (s : σ) (offset : Nat) :
    Prop :=
  ∃ rounds result, run advance handle limit rounds s offset = some result

/-- The offsets the loop comes to. -/
inductive Visits (advance : Nat → Nat) (limit start : Nat) : Nat → Prop
  | start : Visits advance limit start start
  | next {offset : Nat} : Visits advance limit start offset → offset < limit →
      Visits advance limit start (offset + advance offset)

variable {advance : Nat → Nat} {handle : σ → Nat → σ} {limit : Nat}

theorem run_of_ge {offset : Nat} (hge : ¬offset < limit) (rounds : Nat) (s : σ) :
    run advance handle limit rounds s offset = some s := by
  cases rounds with
  | zero => rw [run, if_neg hge]
  | succ rounds => rw [run, if_neg hge]

/-- A loop whose next piece is the last one. -/
theorem run_of_last {offset : Nat} (hlt : offset < limit) (hlast : limit ≤ offset + advance offset)
    (rounds : Nat) (s : σ) :
    run advance handle limit (rounds + 1) s offset = some (handle s offset) := by
  rw [run, if_pos hlt, run_of_ge (by omega)]

/-- What every round keeps, the loop keeps. -/
theorem run_invariant {P : σ → Prop} (hround : ∀ s offset, offset < limit → P s → P (handle s offset))
    {rounds offset : Nat} {s s' : σ} (hstart : P s)
    (hrun : run advance handle limit rounds s offset = some s') : P s' := by
  induction rounds generalizing s offset with
  | zero =>
      rw [run] at hrun
      split_ifs at hrun
      rwa [← Option.some.inj hrun]
  | succ rounds ih =>
      rw [run] at hrun
      split_ifs at hrun with hlt
      · exact ih (hround s offset hlt hstart) hrun
      · rwa [← Option.some.inj hrun]

theorem terminates_next {offset : Nat} (hlt : offset < limit) {s : σ}
    (hend : Terminates advance handle limit s offset) :
    Terminates advance handle limit (handle s offset) (offset + advance offset) := by
  obtain ⟨rounds, result, hrun⟩ := hend
  cases rounds with
  | zero => rw [run, if_pos hlt] at hrun; exact absurd hrun (Option.some_ne_none _).symm
  | succ rounds => rw [run, if_pos hlt] at hrun; exact ⟨rounds, result, hrun⟩

/-- A piece that does not let the loop advance keeps it forever. -/
theorem run_of_stuck {offset : Nat} (hlt : offset < limit) (hzero : advance offset = 0)
    (rounds : Nat) (s : σ) : run advance handle limit rounds s offset = none := by
  induction rounds generalizing s with
  | zero => rw [run, if_pos hlt]
  | succ rounds ih => rw [run, if_pos hlt, hzero, Nat.add_zero, ih]

theorem Terminates.visits {start offset : Nat} {s : σ}
    (hend : Terminates advance handle limit s start) (hvisit : Visits advance limit start offset) :
    ∃ s, Terminates advance handle limit s offset := by
  induction hvisit with
  | start => exact ⟨s, hend⟩
  | next _ hlt ih =>
      obtain ⟨s, hs⟩ := ih
      exact ⟨_, terminates_next hlt hs⟩

theorem Visits.trans {start middle offset : Nat} (hfirst : Visits advance limit start middle)
    (hsecond : Visits advance limit middle offset) : Visits advance limit start offset := by
  induction hsecond with
  | start => exact hfirst
  | next _ hlt ih => exact ih.next hlt

/-- When every piece lets the loop advance, as many rounds are enough as there are offsets left. -/
theorem run_of_advances {start : Nat}
    (hadvance : ∀ offset, Visits advance limit start offset → offset < limit → 0 < advance offset)
    (rounds : Nat) (hrounds : limit - start ≤ rounds) (s : σ) :
    ∃ result, run advance handle limit rounds s start = some result := by
  induction rounds generalizing start s with
  | zero => exact ⟨s, run_of_ge (by omega) 0 s⟩
  | succ rounds ih =>
      by_cases hlt : start < limit
      · rw [run, if_pos hlt]
        have hpos := hadvance start .start hlt
        refine ih (fun offset hvisit => ?_) (by omega) _
        exact hadvance offset ((Visits.start.next hlt).trans hvisit)
      · exact ⟨s, run_of_ge hlt _ s⟩

/-- The loop ends exactly when it advances at every offset it comes to. -/
theorem terminates_iff {s : σ} {start : Nat} :
    Terminates advance handle limit s start ↔
      ∀ offset, Visits advance limit start offset → offset < limit → 0 < advance offset := by
  constructor
  · intro hend offset hvisit hlt
    by_contra hzero
    obtain ⟨s', rounds, result, hrun⟩ := hend.visits hvisit
    rw [run_of_stuck hlt (by omega)] at hrun
    exact absurd hrun (Option.some_ne_none _).symm
  · intro hadvance
    obtain ⟨result, hrun⟩ := run_of_advances hadvance (limit - start) le_rfl s
    exact ⟨_, result, hrun⟩

/-! ### Round by round -/

/-- One round: the state and the offset after it. A loop that has ended stays as it is. -/
def round (advance : Nat → Nat) (handle : σ → Nat → σ) (limit : Nat) (reached : σ × Nat) : σ × Nat :=
  if reached.2 < limit then (handle reached.1 reached.2, reached.2 + advance reached.2) else reached

/-- The state and the offset after a number of rounds. -/
def after (advance : Nat → Nat) (handle : σ → Nat → σ) (limit rounds : Nat) (s : σ) (offset : Nat) :
    σ × Nat :=
  (round advance handle limit)^[rounds] (s, offset)

theorem after_of_ge {offset : Nat} (hge : ¬offset < limit) (rounds : Nat) (s : σ) :
    after advance handle limit rounds s offset = (s, offset) := by
  refine Function.iterate_fixed ?_ rounds
  rw [round, if_neg hge]

theorem after_succ (rounds : Nat) (s : σ) (offset : Nat) :
    after advance handle limit (rounds + 1) s offset =
      round advance handle limit (after advance handle limit rounds s offset) :=
  Function.iterate_succ_apply' _ _ _

theorem after_next {offset : Nat} (hlt : offset < limit) (rounds : Nat) (s : σ) :
    after advance handle limit (rounds + 1) s offset =
      after advance handle limit rounds (handle s offset) (offset + advance offset) := by
  rw [after, Function.iterate_succ_apply, round, if_pos hlt]
  rfl

/-- The loop with a bound on its rounds returns the state it has come to if it has ended by then. -/
theorem run_eq_after (rounds : Nat) (s : σ) (offset : Nat) :
    run advance handle limit rounds s offset =
      if (after advance handle limit rounds s offset).2 < limit then none
      else some (after advance handle limit rounds s offset).1 := by
  induction rounds generalizing s offset with
  | zero => rfl
  | succ rounds ih =>
      by_cases hlt : offset < limit
      · rw [run, if_pos hlt, ih, after_next hlt]
      · rw [run_of_ge hlt, after_of_ge hlt, if_neg hlt]

/-- What every round keeps holds after any number of rounds. -/
theorem after_invariant {P : σ → Prop}
    (hround : ∀ s offset, offset < limit → P s → P (handle s offset)) {s : σ} (hstart : P s)
    (rounds offset : Nat) : P (after advance handle limit rounds s offset).1 := by
  induction rounds with
  | zero => exact hstart
  | succ rounds ih =>
      rw [after_succ, round]
      split_ifs with hlt
      · exact hround _ _ hlt ih
      · exact ih

/-- Loops that do the same at every offset that one of them comes to. -/
theorem after_congr {advance' : Nat → Nat} {handle' : σ → Nat → σ} {start : Nat}
    (hsame : ∀ offset, Visits advance limit start offset → offset < limit →
      advance' offset = advance offset ∧ ∀ s, handle' s offset = handle s offset)
    (rounds : Nat) (s : σ) :
    after advance' handle' limit rounds s start = after advance handle limit rounds s start := by
  induction rounds generalizing start s with
  | zero => rfl
  | succ rounds ih =>
      by_cases hlt : start < limit
      · obtain ⟨hadvance, hhandle⟩ := hsame start .start hlt
        rw [after_next hlt, after_next hlt, hadvance, hhandle]
        exact ih (fun offset hvisit => hsame offset ((Visits.start.next hlt).trans hvisit)) _
      · rw [after_of_ge hlt, after_of_ge hlt]

/-- The offsets the loop comes to by way of pieces with a property. -/
inductive Reaches (good : Nat → Prop) (advance : Nat → Nat) (limit start : Nat) : Nat → Prop
  | start : Reaches good advance limit start start
  | next {offset : Nat} : Reaches good advance limit start offset → offset < limit → good offset →
      Reaches good advance limit start (offset + advance offset)

theorem Visits.reaches {good : Nat → Prop} {start offset : Nat}
    (hgood : ∀ offset, Reaches good advance limit start offset → offset < limit → good offset)
    (hvisit : Visits advance limit start offset) : Reaches good advance limit start offset := by
  induction hvisit with
  | start => exact .start
  | next _ hlt ih => exact ih.next hlt (hgood _ ih hlt)

theorem Reaches.start_le {good : Nat → Prop} {start offset : Nat}
    (hreaches : Reaches good advance limit start offset) : start ≤ offset := by
  induction hreaches with
  | start => exact le_rfl
  | next _ _ _ ih => exact ih.trans (Nat.le_add_right _ _)

/-- If a piece the loop comes to does not have the property, there is a first such piece. -/
theorem exists_first {good : Nat → Prop} {start : Nat}
    (hnot : ¬∀ offset, Visits advance limit start offset → offset < limit → good offset) :
    ∃ offset, Reaches good advance limit start offset ∧ offset < limit ∧ ¬good offset := by
  by_contra hnone
  push Not at hnone
  exact hnot fun offset hvisit hlt => hnone offset (hvisit.reaches hnone) hlt

/-- Loops that do the same at the pieces with the property come to the same offset in the same state. -/
theorem Reaches.after_eq {good : Nat → Prop} {start offset : Nat}
    (hreaches : Reaches good advance limit start offset) (handle : σ → Nat → σ) :
    ∃ rounds, ∀ (advance' : Nat → Nat) (handle' : σ → Nat → σ),
      (∀ offset, good offset → advance' offset = advance offset) →
      (∀ offset, good offset → ∀ s, handle' s offset = handle s offset) → ∀ s,
        after advance' handle' limit rounds s start =
          ((after advance handle limit rounds s start).1, offset) := by
  induction hreaches with
  | start => exact ⟨0, fun _ _ _ _ _ => rfl⟩
  | @next offset _ hlt hgood ih =>
      obtain ⟨rounds, hsame⟩ := ih
      refine ⟨rounds + 1, fun advance' handle' hadvance hhandle s => ?_⟩
      have hthis := hsame advance handle (fun _ _ => rfl) (fun _ _ _ => rfl) s
      rw [after_succ, after_succ, hsame advance' handle' hadvance hhandle s, hthis, round, round,
        if_pos hlt, if_pos hlt]
      dsimp only
      rw [hadvance offset hgood, hhandle offset hgood]

/-- A loop that has ended after a number of rounds ends with any greater bound. -/
theorem run_of_after {rounds : Nat} {s : σ} {start : Nat}
    (hended : ¬(after advance handle limit rounds s start).2 < limit) (more : Nat) :
    run advance handle limit (rounds + more) s start =
      some (after advance handle limit rounds s start).1 := by
  have hstays : after advance handle limit (rounds + more) s start =
      after advance handle limit rounds s start := by
    rw [after, Nat.add_comm, Function.iterate_add_apply]
    exact after_of_ge hended more _
  rw [run_eq_after, hstays, if_neg hended]

theorem run_of_after_eq {rounds last : Nat} {s result : σ} {start : Nat}
    (hafter : after advance handle limit rounds s start = (result, last)) (hlast : limit ≤ last)
    (more : Nat) : run advance handle limit (rounds + more) s start = some result := by
  have hended : ¬(after advance handle limit rounds s start).2 < limit := by
    rw [hafter]
    exact not_lt.mpr hlast
  rw [run_of_after hended, hafter]

theorem after_of_run {rounds : Nat} {s result : σ} {start : Nat}
    (hrun : run advance handle limit rounds s start = some result) :
    ∃ last, limit ≤ last ∧ after advance handle limit rounds s start = (result, last) := by
  rw [run_eq_after] at hrun
  split_ifs at hrun with hended
  exact ⟨_, not_lt.mp hended, Prod.ext (Option.some.inj hrun) rfl⟩

/-- When both have reached the end, the loop and its rounds have the same result. -/
theorem result_eq {rounds rounds' last start : Nat} {s result result' : σ}
    (hrun : run advance handle limit rounds s start = some result)
    (hafter : after advance handle limit rounds' s start = (result', last)) (hlast : limit ≤ last) :
    result = result' := by
  obtain ⟨end', hend, hended⟩ := after_of_run hrun
  have hmore := run_of_after_eq hended hend rounds'
  rw [Nat.add_comm, run_of_after_eq hafter hlast rounds] at hmore
  exact (Option.some.inj hmore).symm

theorem after_add (more rounds : Nat) (s : σ) (start : Nat) :
    after advance handle limit (more + rounds) s start =
      after advance handle limit more (after advance handle limit rounds s start).1
        (after advance handle limit rounds s start).2 :=
  Function.iterate_add_apply _ _ _ _

theorem after_visits (rounds : Nat) (s : σ) (start : Nat) :
    Visits advance limit start (after advance handle limit rounds s start).2 := by
  induction rounds with
  | zero => exact .start
  | succ rounds ih =>
      rw [after_succ, round]
      split_ifs with hlt
      · exact ih.next hlt
      · exact ih

theorem Visits.start_le {start offset : Nat} (hvisit : Visits advance limit start offset) :
    start ≤ offset := by
  induction hvisit with
  | start => exact le_rfl
  | next _ _ ih => exact ih.trans (Nat.le_add_right _ _)

/-- A loop that has ended after some rounds has come to where it is, and advances at every offset it comes
to. -/
theorem visits_of_after {rounds last start : Nat} {s result : σ}
    (hafter : after advance handle limit rounds s start = (result, last)) :
    Visits advance limit start last := by
  have hvisit : Visits advance limit start (after advance handle limit rounds s start).2 :=
    after_visits rounds s start
  rw [hafter] at hvisit
  exact hvisit

theorem pos_of_after {rounds last start : Nat} {s result : σ}
    (hafter : after advance handle limit rounds s start = (result, last)) (hlast : limit ≤ last)
    (offset : Nat) (hvisit : Visits advance limit start offset) (hlt : offset < limit) :
    0 < advance offset :=
  terminates_iff.mp ⟨_, result, run_of_after_eq hafter hlast 0⟩ offset hvisit hlt

theorem Reaches.visits {good : Nat → Prop} {start offset : Nat}
    (hreaches : Reaches good advance limit start offset) : Visits advance limit start offset := by
  induction hreaches with
  | start => exact .start
  | next _ hlt _ ih => exact ih.next hlt

/-- Once a loop has ended it stays so: what is left of it after some of its rounds ends in the same way. -/
theorem after_rest {rounds done last start offset : Nat} {s s' result : σ}
    (hafter : after advance handle limit rounds s start = (result, last)) (hlast : limit ≤ last)
    (hdone : after advance handle limit done s start = (s', offset)) :
    after advance handle limit rounds s' offset = (result, last) := by
  have hstays : after advance handle limit (done + rounds) s start = (result, last) := by
    rw [after_add, hafter, after_of_ge (not_lt.mpr hlast)]
  rw [Nat.add_comm, after_add, hdone] at hstays
  exact hstays

/-- Pieces that change nothing are passed over. -/
theorem Reaches.after_same {good : Nat → Prop} {start offset : Nat}
    (hreaches : Reaches good advance limit start offset)
    (hsame : ∀ offset, good offset → ∀ s, handle s offset = s) :
    ∃ rounds, ∀ s, after advance handle limit rounds s start = (s, offset) := by
  induction hreaches with
  | start => exact ⟨0, fun s => rfl⟩
  | @next offset _ hlt hgood ih =>
      obtain ⟨rounds, hrounds⟩ := ih
      refine ⟨rounds + 1, fun s => ?_⟩
      rw [after_succ, hrounds, round, if_pos hlt, hsame offset hgood]

section

variable {π : Type} {size : π → Nat} {lies : Nat → π → Prop}

/-- Pieces lie one behind the other from an offset up to a limit. -/
inductive Laid (size : π → Nat) (lies : Nat → π → Prop) : Nat → List π → Nat → Prop
  | nil (offset : Nat) : Laid size lies offset [] offset
  | cons {offset limit : Nat} {piece : π} {pieces : List π} : lies offset piece →
      Laid size lies (offset + size piece) pieces limit → Laid size lies offset (piece :: pieces) limit

theorem Laid.le {offset : Nat} {pieces : List π} (hlaid : Laid size lies offset pieces limit) :
    offset ≤ limit := by
  induction hlaid with
  | nil offset => exact le_rfl
  | cons _ _ ih => exact (Nat.le_add_right _ _).trans ih

/-- A loop that handles each piece and advances by its size handles them in order, up to the limit. -/
theorem Laid.after_eq {act : σ → π → σ} (hsize : ∀ piece, 0 < size piece)
    (hstep : ∀ offset piece, lies offset piece →
      advance offset = size piece ∧ ∀ s, handle s offset = act s piece)
    {start : Nat} {pieces : List π} (hlaid : Laid size lies start pieces limit) (s : σ) :
    after advance handle limit pieces.length s start = (pieces.foldl act s, limit) := by
  induction hlaid generalizing s with
  | nil offset => rfl
  | @cons offset limit piece pieces hlies hrest ih =>
      obtain ⟨hadvance, hhandle⟩ := hstep offset piece hlies
      have hlt : offset < limit := (Nat.lt_add_of_pos_right (hsize piece)).trans_le hrest.le
      rw [List.length_cons, after_next hlt, hadvance, hhandle, List.foldl_cons]
      exact ih (act s piece)

end

end OffsetLoop
