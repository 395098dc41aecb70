import Mathlib.Order.Monotone.Basic
import Mathlib.Logic.Function.Basic

/-! Leases that run out: a holder has one from its last renewal on, up to a time that depends on when that
was. Whoever looks after the leases ends them at some time after they have run out, in any order. -/

namespace Snapcastc

/-- What happens to leases: a holder renews its own, or they are looked after at a time. -/
inductive LeaseEvent (α τ : Type) where
  | renew (holder : α) (time : τ)
  | check (time : τ)

namespace LeaseEvent

variable {α τ : Type}

/-- When an event happens. -/
def time : LeaseEvent α τ → τ
  | .renew _ time => time
  | .check time => time

variable [DecidableEq α] [Preorder τ]

/-- What an event does to the leases, which are given by the times up to which they are good. When they are
looked after, one that has run out may be ended. -/
inductive Step (ends : τ → τ) (leases : α → Option τ) : LeaseEvent α τ → (α → Option τ) → Prop
  | renew (holder : α) (time : τ) :
      Step ends leases (.renew holder time) (Function.update leases holder (some (ends time)))
  | keep (time : τ) : Step ends leases (.check time) leases
  | expire {holder : α} {good time : τ} : leases holder = some good → good ≤ time →
      Step ends leases (.check time) (Function.update leases holder none)

/-- The leases after a sequence of events; at first nobody has one. -/
inductive Run (ends : τ → τ) : List (LeaseEvent α τ) → (α → Option τ) → Prop
  | none : Run ends [] fun _ => Option.none
  | step {past : List (LeaseEvent α τ)} {leases leases' : α → Option τ} {event : LeaseEvent α τ} :
      Run ends past leases → Step ends leases event leases' → Run ends (past ++ [event]) leases'

namespace Run

variable {ends : τ → τ} {past : List (LeaseEvent α τ)} {leases : α → Option τ}

/-- A lease is that of a renewal. -/
theorem renewed (hrun : Run ends past leases) {holder : α} {good : τ}
    (hlease : leases holder = some good) : ∃ time, .renew holder time ∈ past ∧ ends time = good := by
  induction hrun with
  | none => cases hlease
  | @step past leases leases' event hrun hstep ih =>
      have hold : leases holder = some good →
          ∃ time, .renew holder time ∈ past ++ [event] ∧ ends time = good := by
        intro hlease
        obtain ⟨time, htime, hends⟩ := ih hlease
        exact ⟨time, List.mem_append_left _ htime, hends⟩
      cases hstep with
      | renew other time =>
          rw [Function.update_apply] at hlease
          split_ifs at hlease with hsame
          · subst hsame
            exact ⟨time, List.mem_append_right _ (List.mem_singleton_self _), Option.some.inj hlease⟩
          · exact hold hlease
      | keep time => exact hold hlease
      | expire hother hgood =>
          rw [Function.update_apply] at hlease
          split_ifs at hlease
          exact hold hlease

/-- A renewal is good for as long as it promises: the lease lasts, or its time is over. -/
theorem lasting (hrun : Run ends past leases) {times : Set τ} (hends : MonotoneOn ends times)
    (htimes : ∀ event ∈ past, event.time ∈ times)
    (hsorted : past.Pairwise fun earlier later => earlier.time ≤ later.time) {holder : α} {time : τ}
    (hrenew : .renew holder time ∈ past) :
    (∃ good, leases holder = some good ∧ ends time ≤ good) ∨ ∃ event ∈ past, ends time ≤ event.time := by
  induction hrun with
  | none => cases hrenew
  | @step past leases leases' event hrun hstep ih =>
      obtain ⟨hpast, -, hacross⟩ := List.pairwise_append.mp hsorted
      have hmem : ∀ {earlier}, earlier ∈ past → earlier.time ≤ event.time :=
        fun hearlier => hacross _ hearlier event (List.mem_singleton_self _)
      have hlate : (∃ event ∈ past, ends time ≤ event.time) →
          ∃ later ∈ past ++ [event], ends time ≤ later.time :=
        fun ⟨later, hlater, hle⟩ => ⟨later, List.mem_append_left _ hlater, hle⟩
      have hnew : event ∈ past ++ [event] := List.mem_append_right _ (List.mem_singleton_self _)
      have hfirst := htimes event hnew
      rcases List.mem_append.mp hrenew with hbefore | hlast
      · have hearlier := htimes _ (List.mem_append_left [event] hbefore)
        rcases ih (fun event hevent => htimes event (List.mem_append_left _ hevent)) hpast hbefore with
          ⟨good, hlease, hle⟩ | hover
        · cases hstep with
          | renew other later =>
              rw [Function.update_apply]
              split_ifs with hsame
              · exact .inl ⟨_, rfl, hends hearlier hfirst (hmem hbefore)⟩
              · exact .inl ⟨good, hlease, hle⟩
          | keep later => exact .inl ⟨good, hlease, hle⟩
          | @expire other ended later hended hover =>
              rw [Function.update_apply]
              split_ifs with hsame
              · subst hsame
                obtain rfl := Option.some.inj (hlease.symm.trans hended)
                exact .inr ⟨_, hnew, hle.trans hover⟩
              · exact .inl ⟨good, hlease, hle⟩
        · exact .inr (hlate hover)
      · obtain rfl := List.mem_singleton.mp hlast
        cases hstep
        rw [Function.update_self]
        exact .inl ⟨_, rfl, le_rfl⟩

/-- Once every lease that has run out is ended, those who have one are those whose renewal is still
good. -/
theorem held_iff (hrun : Run ends past leases) {times : Set τ} (hends : MonotoneOn ends times)
    (htimes : ∀ event ∈ past, event.time ∈ times)
    (hsorted : past.Pairwise fun earlier later => earlier.time ≤ later.time) {now : τ}
    (hpast : ∀ event ∈ past, event.time ≤ now)
    (hended : ∀ holder good, leases holder = some good → ¬good ≤ now) (holder : α) :
    leases holder ≠ Option.none ↔ ∃ time, .renew holder time ∈ past ∧ ¬ends time ≤ now := by
  constructor
  · intro hheld
    obtain ⟨good, hlease⟩ := Option.ne_none_iff_exists'.mp hheld
    obtain ⟨time, hrenew, rfl⟩ := hrun.renewed hlease
    exact ⟨time, hrenew, hended holder _ hlease⟩
  · rintro ⟨time, hrenew, hgood⟩
    rcases hrun.lasting hends htimes hsorted hrenew with ⟨good, hlease, -⟩ | ⟨event, hevent, hover⟩
    · rw [hlease]
      exact Option.some_ne_none _
    · exact absurd (hover.trans (hpast event hevent)) hgood

end Run

end LeaseEvent

end Snapcastc
