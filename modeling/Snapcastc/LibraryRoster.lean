import Mathlib

/-! Members of groups, each with a timer of its own. A roster is in order when no one is in two groups
or twice in one, and the timers are those of the members. -/

/-- The members of each group with their timers, and the timers that are set with their members. -/
structure Roster (ι α τ : Type) where
  members : ι → List (α × τ)
  timers : List (τ × α)

namespace Roster

variable {ι α τ : Type}

/-- No one is a member twice, and there is one timer for each member. -/
structure InOrder (r : Roster ι α τ) : Prop where
  nodup : ∀ i, ((r.members i).map Prod.fst).Nodup
  disjoint : ∀ i j a t u, (a, t) ∈ r.members i → (a, u) ∈ r.members j → i = j
  timersNodup : (r.timers.map Prod.fst).Nodup
  matched : ∀ t a, (t, a) ∈ r.timers ↔ ∃ i, (a, t) ∈ r.members i

variable [DecidableEq ι] [DecidableEq α] [DecidableEq τ]

/-- Someone joins a group, with a new timer. -/
def add (r : Roster ι α τ) (i : ι) (a : α) (t : τ) : Roster ι α τ :=
  ⟨Function.update r.members i (r.members i ++ [(a, t)]), r.timers ++ [(t, a)]⟩

/-- A member leaves, and the timer is cancelled. -/
def remove (r : Roster ι α τ) (i : ι) (a : α) (t : τ) : Roster ι α τ :=
  ⟨Function.update r.members i ((r.members i).erase (a, t)), r.timers.filter fun e => e.1 != t⟩

/-- A member goes to another group, with the timer. -/
def move (r : Roster ι α τ) (i j : ι) (a : α) (t : τ) : Roster ι α τ :=
  ⟨Function.update (Function.update r.members j (r.members j ++ [(a, t)])) i ((r.members i).erase (a, t)),
    r.timers⟩

omit [DecidableEq α] [DecidableEq τ] in
theorem add_members (r : Roster ι α τ) (i : ι) (a : α) (t : τ) :
    (r.add i a t).members = Function.update r.members i (r.members i ++ [(a, t)]) := rfl

theorem remove_members (r : Roster ι α τ) (i : ι) (a : α) (t : τ) :
    (r.remove i a t).members = Function.update r.members i ((r.members i).erase (a, t)) := rfl

theorem move_members (r : Roster ι α τ) (i j : ι) (a : α) (t : τ) :
    (r.move i j a t).members = Function.update (Function.update r.members j (r.members j ++ [(a, t)]))
      i ((r.members i).erase (a, t)) := rfl

/-- The ways in which a roster changes. -/
inductive Step (r : Roster ι α τ) : Roster ι α τ → Prop
  | add {i : ι} {a : α} {t : τ} (hnew : ∀ j u, (a, u) ∉ r.members j) (htimer : ∀ b, (t, b) ∉ r.timers) :
      Step r (r.add i a t)
  | remove {i : ι} {a : α} {t : τ} (hmember : (a, t) ∈ r.members i) : Step r (r.remove i a t)
  | move {i j : ι} {a : α} {t : τ} (hmember : (a, t) ∈ r.members i) (hne : i ≠ j) :
      Step r (r.move i j a t)

namespace InOrder

variable {r r' : Roster ι α τ}

omit [DecidableEq ι] [DecidableEq α] [DecidableEq τ] in
theorem members_nodup (hr : r.InOrder) (i : ι) : (r.members i).Nodup := (hr.nodup i).of_map _

omit [DecidableEq ι] [DecidableEq α] [DecidableEq τ] in
/-- Two entries of one member are the same. -/
theorem timer_unique (hr : r.InOrder) {i j : ι} {a : α} {t u : τ} (hfirst : (a, t) ∈ r.members i)
    (hsecond : (a, u) ∈ r.members j) : t = u := by
  obtain rfl := hr.disjoint i j a t u hfirst hsecond
  have hsame := List.inj_on_of_nodup_map (hr.nodup i) hfirst hsecond rfl
  exact congrArg Prod.snd hsame

omit [DecidableEq ι] [DecidableEq α] [DecidableEq τ] in
/-- A timer belongs to one member. -/
theorem member_unique (hr : r.InOrder) {i j : ι} {a b : α} {t : τ} (hfirst : (a, t) ∈ r.members i)
    (hsecond : (b, t) ∈ r.members j) : a = b := by
  have hmem := (hr.matched t a).mpr ⟨i, hfirst⟩
  have hmem' := (hr.matched t b).mpr ⟨j, hsecond⟩
  have hsame := List.inj_on_of_nodup_map hr.timersNodup hmem hmem' rfl
  exact congrArg Prod.snd hsame

omit [DecidableEq ι] [DecidableEq τ] in
/-- A member has exactly one timer. -/
theorem timer_singleton (hr : r.InOrder) {i : ι} {a : α} {t : τ} (hmember : (a, t) ∈ r.members i) :
    (r.timers.filter fun e => e.2 == a) = [(t, a)] := by
  have hnodup : (r.timers.filter fun e => e.2 == a).Nodup := (hr.timersNodup.of_map _).filter _
  have hmem : (t, a) ∈ r.timers.filter fun e => e.2 == a :=
    List.mem_filter.mpr ⟨(hr.matched t a).mpr ⟨i, hmember⟩, beq_self_eq_true a⟩
  have hall : ∀ e ∈ r.timers.filter fun e => e.2 == a, e = (t, a) := by
    rintro ⟨u, b⟩ he
    obtain ⟨hset, hb⟩ := List.mem_filter.mp he
    obtain rfl : b = a := eq_of_beq hb
    obtain ⟨j, hj⟩ := (hr.matched u b).mp hset
    rw [hr.timer_unique hj hmember]
  refine List.perm_singleton.mp ((List.perm_ext_iff_of_nodup hnodup (List.nodup_singleton _)).mpr ?_)
  intro e
  rw [List.mem_singleton]
  refine ⟨hall e, ?_⟩
  rintro rfl
  exact hmem

omit [DecidableEq α] [DecidableEq τ] in
theorem add (hr : r.InOrder) {i : ι} {a : α} {t : τ} (hnew : ∀ j u, (a, u) ∉ r.members j)
    (htimer : ∀ b, (t, b) ∉ r.timers) : (r.add i a t).InOrder := by
  have hmem : ∀ j b u, (b, u) ∈ (r.add i a t).members j ↔
      (b, u) ∈ r.members j ∨ j = i ∧ b = a ∧ u = t := by
    intro j b u
    rw [add_members]
    rcases eq_or_ne j i with rfl | hne
    · simp
    · simp [hne]
  refine ⟨fun j => ?_, fun j k b u v hu hv => ?_, ?_, fun u b => ?_⟩
  · rw [add_members]
    rcases eq_or_ne j i with rfl | hne
    · rw [Function.update_self, List.map_append]
      refine List.Nodup.append (hr.nodup j) (List.nodup_singleton a) (List.disjoint_singleton.mpr ?_)
      intro hmem
      obtain ⟨⟨b, u⟩, he, rfl⟩ := List.mem_map.mp hmem
      exact hnew j u he
    · rw [Function.update_of_ne hne]
      exact hr.nodup j
  · rcases (hmem j b u).mp hu with hu' | ⟨rfl, rfl, -⟩
    · rcases (hmem k b v).mp hv with hv' | ⟨-, rfl, -⟩
      · exact hr.disjoint j k b u v hu' hv'
      · exact absurd hu' (hnew j u)
    · rcases (hmem k b v).mp hv with hv' | ⟨rfl, -, -⟩
      · exact absurd hv' (hnew k v)
      · rfl
  · rw [Roster.add, List.map_append]
    refine List.Nodup.append hr.timersNodup (List.nodup_singleton t) (List.disjoint_singleton.mpr ?_)
    intro hmem
    obtain ⟨⟨u, b⟩, he, rfl⟩ := List.mem_map.mp hmem
    exact htimer b he
  · simp only [hmem, exists_or, exists_eq_left]
    rw [← hr.matched u b, Roster.add, List.mem_append, List.mem_singleton, Prod.mk.injEq,
      and_comm (a := u = t)]

/-- Who is in which group after someone has left. -/
theorem mem_remove (hr : r.InOrder) {i : ι} {a : α} {t : τ} (hmember : (a, t) ∈ r.members i)
    (j : ι) (b : α) (u : τ) :
    (b, u) ∈ (r.remove i a t).members j ↔ (b, u) ∈ r.members j ∧ b ≠ a := by
  rw [remove_members]
  rcases eq_or_ne j i with rfl | hne
  · rw [Function.update_self, (hr.members_nodup j).mem_erase_iff]
    constructor
    · rintro ⟨hdiff, hmem⟩
      refine ⟨hmem, ?_⟩
      rintro rfl
      exact hdiff (Prod.ext rfl (hr.timer_unique hmem hmember))
    · rintro ⟨hmem, hdiff⟩
      exact ⟨fun heq => hdiff (congrArg Prod.fst heq), hmem⟩
  · rw [Function.update_of_ne hne]
    refine ⟨fun hmem => ⟨hmem, ?_⟩, And.left⟩
    rintro rfl
    exact hne (hr.disjoint j i b u t hmem hmember)

theorem remove (hr : r.InOrder) {i : ι} {a : α} {t : τ} (hmember : (a, t) ∈ r.members i) :
    (r.remove i a t).InOrder := by
  have hmem := hr.mem_remove hmember
  refine ⟨fun j => ?_, fun j k b u v hu hv => ?_, ?_, fun u b => ?_⟩
  · rw [remove_members]
    rcases eq_or_ne j i with rfl | hne
    · rw [Function.update_self]
      exact (hr.nodup j).sublist (List.erase_sublist.map _)
    · rw [Function.update_of_ne hne]
      exact hr.nodup j
  · exact hr.disjoint j k b u v ((hmem j b u).mp hu).1 ((hmem k b v).mp hv).1
  · exact hr.timersNodup.sublist (List.filter_sublist.map _)
  · simp only [hmem]
    rw [Roster.remove, List.mem_filter, bne_iff_ne, hr.matched u b]
    constructor
    · rintro ⟨⟨j, hj⟩, hdiff⟩
      refine ⟨j, hj, ?_⟩
      rintro rfl
      exact hdiff (hr.timer_unique hj hmember)
    · rintro ⟨j, hj, hdiff⟩
      refine ⟨⟨j, hj⟩, ?_⟩
      rintro rfl
      exact hdiff (hr.member_unique hj hmember)

/-- Who is in which group after someone has gone to another one. -/
theorem mem_move (hr : r.InOrder) {i j : ι} {a : α} {t : τ} (hmember : (a, t) ∈ r.members i)
    (hne : i ≠ j) (k : ι) (b : α) (u : τ) :
    (b, u) ∈ (r.move i j a t).members k ↔ (b, u) ∈ r.members k ∧ b ≠ a ∨ k = j ∧ b = a ∧ u = t := by
  have hrest := hr.mem_remove hmember k b u
  rw [remove_members] at hrest
  rw [move_members]
  rcases eq_or_ne k i with rfl | hki
  · rw [Function.update_self] at hrest ⊢
    rw [hrest]
    simp [hne]
  · rw [Function.update_of_ne hki] at hrest ⊢
    rcases eq_or_ne k j with rfl | hkj
    · rw [Function.update_self, List.mem_append, List.mem_singleton, Prod.mk.injEq, hrest]
      simp
    · rw [Function.update_of_ne hkj]
      rw [hrest]
      simp [hkj]

theorem move (hr : r.InOrder) {i j : ι} {a : α} {t : τ} (hmember : (a, t) ∈ r.members i)
    (hne : i ≠ j) : (r.move i j a t).InOrder := by
  have hmem := hr.mem_move hmember hne
  refine ⟨fun k => ?_, fun k l b u v hu hv => ?_, hr.timersNodup, fun u b => ?_⟩
  · rw [move_members]
    rcases eq_or_ne k i with rfl | hki
    · rw [Function.update_self]
      exact (hr.nodup k).sublist (List.erase_sublist.map _)
    · rw [Function.update_of_ne hki]
      rcases eq_or_ne k j with rfl | hkj
      · rw [Function.update_self, List.map_append]
        refine List.Nodup.append (hr.nodup k) (List.nodup_singleton a)
          (List.disjoint_singleton.mpr ?_)
        intro hmem
        obtain ⟨⟨b, u⟩, he, rfl⟩ := List.mem_map.mp hmem
        exact hki (hr.disjoint k i _ u t he hmember)
      · rw [Function.update_of_ne hkj]
        exact hr.nodup k
  · rcases (hmem k b u).mp hu with ⟨hu', hdiff⟩ | ⟨rfl, rfl, -⟩
    · rcases (hmem l b v).mp hv with ⟨hv', -⟩ | ⟨-, rfl, -⟩
      · exact hr.disjoint k l b u v hu' hv'
      · exact absurd rfl hdiff
    · rcases (hmem l b v).mp hv with ⟨-, hdiff⟩ | ⟨rfl, -, -⟩
      · exact absurd rfl hdiff
      · rfl
  · change (u, b) ∈ r.timers ↔ _
    simp only [hmem]
    rw [hr.matched u b]
    constructor
    · rintro ⟨k, hk⟩
      rcases eq_or_ne b a with rfl | hdiff
      · exact ⟨j, .inr ⟨rfl, rfl, hr.timer_unique hk hmember⟩⟩
      · exact ⟨k, .inl ⟨hk, hdiff⟩⟩
    · rintro ⟨k, ⟨hk, -⟩ | ⟨-, rfl, rfl⟩⟩
      · exact ⟨k, hk⟩
      · exact ⟨i, hmember⟩

theorem step (hr : r.InOrder) (hstep : Step r r') : r'.InOrder := by
  cases hstep with
  | add hnew htimer => exact hr.add hnew htimer
  | remove hmember => exact hr.remove hmember
  | move hmember hne => exact hr.move hmember hne

/-- A roster stays in order. -/
theorem steps (hr : r.InOrder) (hsteps : Relation.ReflTransGen Step r r') : r'.InOrder := by
  induction hsteps with
  | refl => exact hr
  | tail _ hstep ih => exact ih.step hstep

end InOrder

end Roster
