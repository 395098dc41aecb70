import Snapcastc.TaskqueueCalls

/-! The representation invariant of the task queue in terms of its pointers, and that every sequence of
calls keeps it. -/

namespace Snapcastc

open Batteries.PairingHeapImp

namespace Taskqueue

/-- The tasks met on a walk along the pointers: a task, what is below it, what comes after it. The first
argument bounds the depth of the walk. -/
def walk : Nat → Taskqueue → Option Nat → List Nat
  | _, _, none => []
  | 0, _, some _ => []
  | depth + 1, s, some t =>
      t :: (walk depth s (s.get (.children t)) ++ walk depth s (s.get (.next t)))

/-- The tasks met on the walk from `ctx->queue`. -/
def tasks (s : Taskqueue) : List Nat := walk s.fresh s s.queue

/-- The children of a task: the first one and every next sibling of a child. -/
inductive ChildOf (s : Taskqueue) (parent : Nat) : Nat → Prop where
  | first {child : Nat} (hget : s.get (.children parent) = some child) : ChildOf s parent child
  | next {child sibling : Nat} (hchild : ChildOf s parent child)
      (hget : s.get (.next child) = some sibling) : ChildOf s parent sibling

structure WellFormed (s : Taskqueue) : Prop where
  /-- `pprev` designates exactly the one pointer that points to the task. -/
  pprev_iff : ∀ t slot, s.pprev t = some slot ↔ s.get slot = some t
  /-- The root has no sibling. -/
  root_next : ∀ root, s.queue = some root → s.get (.next root) = none
  /-- Each task appears at most once. -/
  nodup : s.tasks.Nodup
  /-- The tasks that appear are the linked ones. -/
  mem_iff : ∀ t, t ∈ s.tasks ↔ s.linked t = true
  /-- No child is due earlier than its parent. -/
  child_due : ∀ parent child, ChildOf s parent child →
    timespecCmp (s.due parent) (s.due child) ≤ 0

variable {s : Taskqueue}

theorem Shape.walk {p : Option Nat} {h : Heap Nat} (hshape : Shape s p h) {depth : Nat}
    (hdepth : h.elements.length ≤ depth) : Taskqueue.walk depth s p = h.elements := by
  induction h generalizing p depth with
  | nil =>
      obtain rfl : p = none := hshape
      cases depth <;> rfl
  | node a c t ihc iht =>
      obtain ⟨rfl, hc, ht⟩ := hshape
      rw [Heap.elements_node, List.length_cons, List.length_append] at hdepth
      obtain ⟨depth, rfl⟩ : ∃ d, depth = d + 1 := ⟨depth - 1, by omega⟩
      rw [Taskqueue.walk, ihc hc (by omega), iht ht (by omega), Heap.elements_node]

/-- The next sibling of a root of a forest is a root of the forest. -/
theorem Shape.next_root {p : Option Nat} {h : Heap Nat} (hshape : Shape s p h) {a b : Nat}
    (ha : a ∈ h.roots) (hget : s.get (.next a) = some b) : b ∈ h.roots := by
  induction h generalizing p with
  | nil => cases ha
  | node x c t _ iht =>
      obtain ⟨-, -, ht⟩ := hshape
      rw [Heap.roots_node, List.mem_cons] at ha ⊢
      rcases ha with rfl | ha
      · cases t with
        | nil =>
            have hnone : s.get (.next a) = none := ht
            rw [hnone] at hget
            cases hget
        | node y d u =>
            rw [ht.1] at hget
            simp [Option.some.inj hget]
      · exact .inr (iht ht ha)

/-- Below a task of an ordered heap is a forest whose roots are not due earlier. -/
theorem Shape.below {p : Option Nat} {h : Heap Nat} {R : Nat → Nat → Prop} (hshape : Shape s p h)
    (hordered : h.Ordered R) {a : Nat} (ha : a ∈ h.elements) :
    ∃ c, Shape s (s.get (.children a)) c ∧ ∀ b ∈ c.roots, R a b := by
  induction h generalizing p with
  | nil => cases ha
  | node x c t ihc iht =>
      obtain ⟨-, hc, ht⟩ := hshape
      obtain ⟨htop, hordc, hordt⟩ := hordered
      simp only [Heap.elements_node, List.mem_cons, List.mem_append] at ha
      rcases ha with rfl | ha | ha
      · exact ⟨c, hc, htop⟩
      · exact ihc hc hordc ha
      · exact iht ht hordt ha

theorem Represents.wellFormed {h : Heap Nat} (hrep : Represents s h) : s.WellFormed := by
  have htasks : s.tasks = h.elements := hrep.shape.walk hrep.length_le
  refine ⟨fun t slot => hrep.pprev_iff slot t, fun root hroot => ?_, ?_, fun t => ?_, ?_⟩
  · exact hrep.shape.singleton hrep.single hroot
  · rw [htasks]
    exact hrep.nodup
  · rw [htasks, hrep.linked_iff]
  · intro parent child hchild
    -- a task with children is in the heap
    have hparent : parent ∈ h.elements := by
      by_contra hnot
      have hnone := (hrep.idle parent hnot).2.2
      induction hchild with
      | first hget =>
          rw [hnone] at hget
          cases hget
      | next _ _ ih => exact ih
    obtain ⟨c, hc, hroots⟩ := hrep.shape.below hrep.ordered hparent
    refine hroots child ?_
    induction hchild with
    | first hget =>
        cases c with
        | nil =>
            have hnone : s.get (.children parent) = none := hc
            rw [hnone] at hget
            cases hget
        | node x d t =>
            rw [hc.1] at hget
            simp [Option.some.inj hget]
    | next _ hget ih => exact hc.next_root ih hget

end Taskqueue

/-- Every sequence of calls that keeps to the ledger leaves a well-formed queue behind, in which exactly
the inserted and not removed tasks are linked; no `exit_bug` is reached. The one other way a sequence
ends is a delay whose due time does not fit in a `long`. -/
theorem performAll_wellFormed (calls : List Call) {ledger : Ledger}
    (hlegal : Ledger.empty.steps calls = some ledger) :
    (∃ s, Scheduler.init.performAll calls = .ok s ∧ s.queue.WellFormed ∧
      ∀ t, s.queue.linked t = true ↔ t ∈ ledger.linked) ∨
    Scheduler.init.performAll calls = .error .signedOverflow := by
  have hreturns := performAll_tracks calls tracks_init hlegal
  cases hcase : Scheduler.init.performAll calls with
  | ok s =>
      rw [hcase] at hreturns
      obtain ⟨h, hrep, hmem⟩ := hreturns.heap
      exact .inl ⟨s, rfl, hrep.wellFormed, fun t => (hrep.linked_iff t).trans (hmem t)⟩
  | error fault =>
      rw [hcase] at hreturns
      exact .inr (congrArg _ hreturns)

/-- Three tasks are posted, the root is removed and inserted again, an inner task is rescheduled and a
task is dropped whose cleanup posts another. -/
theorem performAll_wellFormed_mixed :
    ∃ s, Scheduler.init.performAll [.post 0 5 0 none 0, .post 1 0 0 (some 0) 0, .post 2 0 0 none 0,
        .remove 0, .insert 0, .tick 1000, .reschedule (some 2) 0 1,
        .drop 1 [.post 3 0 0 none 0]] = .ok s ∧ s.queue.WellFormed ∧
      ∀ t, s.queue.linked t = true ↔ t ∈ ({3, 0, 2} : Finset Nat) := by
  have hlegal : Ledger.empty.steps [.post 0 5 0 none 0, .post 1 0 0 (some 0) 0, .post 2 0 0 none 0,
      .remove 0, .insert 0, .tick 1000, .reschedule (some 2) 0 1, .drop 1 [.post 3 0 0 none 0]] =
        some ⟨{3, 2, 0}, {3, 0, 2}, {1}, 4⟩ := rfl
  refine (performAll_wellFormed _ hlegal).resolve_right fun herror => ?_
  have hok : (Scheduler.init.performAll [.post 0 5 0 none 0, .post 1 0 0 (some 0) 0,
      .post 2 0 0 none 0, .remove 0, .insert 0, .tick 1000, .reschedule (some 2) 0 1,
      .drop 1 [.post 3 0 0 none 0]]).isOk = true := by
    decide +kernel
  rw [herror] at hok
  cases hok

end Snapcastc
