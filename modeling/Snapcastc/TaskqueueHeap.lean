import Snapcastc.TaskqueueRep

/-! `taskqueue_merge_pairs`, `taskqueue_insert` and `taskqueue_remove` on the heap of the linked tasks:
none of them stops the process, and each leaves a well-formed heap behind. -/

namespace Snapcastc

open Batteries.PairingHeapImp

namespace Taskqueue

variable {skip : Slot → Prop} {s s' : Taskqueue}

/-- The first two trees of a list are cut off from it. What they pointed to is free afterwards. -/
theorem cut_pair {a b : Nat} {c d t : Heap Nat} (hback : Back skip s)
    (hshape : Shape s (some a) (.node a c (.node b d t)))
    (hnodup : (Heap.node a c (.node b d t)).elements.Nodup)
    (hskip : ∀ slot, skip slot → ¬slot.In (Heap.node a c (.node b d t)).elements)
    (hcut : s' = (s.set (.next b) none).set (.next a) none) :
    Shape s' (some a) (.node a c .nil) ∧ Shape s' (some b) (.node b d .nil) ∧
      Shape s' (s.get (.next b)) t ∧ Back skip s' ∧ Unpointed skip s' b ∧
        (∀ q, s.get (.next b) = some q → Unpointed skip s' q ∧ s'.pprev q ≠ none) ∧
          Rearranged skip [a, b] s s' := by
  obtain ⟨-, hc, hb, hd, ht⟩ := hshape
  have hget : ∀ slot, s'.get slot =
      if slot = .next a then none else if slot = .next b then none else s.get slot := by
    intro slot
    rw [hcut, get_set, get_set]
  simp only [Heap.elements_node, List.nodup_cons, List.nodup_append, List.mem_cons, List.mem_append,
    not_or] at hnodup
  obtain ⟨⟨hac, hab, had, hat⟩, -, ⟨⟨hbd, hbt⟩, -, -, -⟩, hdisjoint⟩ := hnodup
  have hbc : b ∉ c.elements := fun h => hdisjoint b h b (.inl rfl) rfl
  have hframe : ∀ f : Heap Nat, a ∉ f.elements → b ∉ f.elements →
      ∀ slot : Slot, slot.In f.elements → s'.get slot = s.get slot := by
    intro f ha hb slot hin
    rw [hget, if_neg, if_neg]
    · rintro rfl
      exact hb hin
    · rintro rfl
      exact ha hin
  have hfewer : ∀ q slot, s'.get slot = some q → s.get slot = some q := by
    intro q slot h
    rw [hget] at h
    split_ifs at h
    exact h
  have hskipAt : ∀ x, x ∈ (Heap.node a c (.node b d t)).elements → ¬skip (.next x) :=
    fun x hx h => hskip _ h hx
  have hclear : Rearranged skip [a, b] s s' := by
    rw [hcut]
    exact (rearranged_clear (by simp [Slot.In])).trans (rearranged_clear (by simp [Slot.In]))
  refine ⟨⟨rfl, ?_, ?_⟩, ⟨rfl, ?_, ?_⟩, ?_, ?_, ?_, ?_, hclear⟩
  · rw [hget, if_neg (by simp), if_neg (by simp)]
    exact hc.frame (hframe c hac hbc)
  · rw [hget, if_pos rfl]
    rfl
  · rw [hget, if_neg (by simp), if_neg (by simp)]
    exact hd.frame (hframe d had hbd)
  · rw [hget, if_pos rfl, ite_self]
    rfl
  · exact ht.frame (hframe t hat hbt)
  · rw [hcut]
    exact (hback.clear _).clear _
  · refine hback.unpointed (hskipAt a (by simp)) hb ?_ (hfewer b)
    rw [hget, if_pos rfl]
    simp
  · intro q hq
    refine ⟨hback.unpointed (hskipAt b (by simp)) hq ?_ (hfewer q), ?_⟩
    · rw [hget, if_pos rfl, ite_self]
      simp
    · rw [hcut, pprev_set, pprev_set, hback _ _ (hskipAt b (by simp)) hq]
      simp

/-- `taskqueue_merge_pairs` of a list of trees makes one tree of them. The induction is on the list, two
trees at a time. -/
theorem mergePairs_spec (depth : Nat) {p : Option Nat} {h : Heap Nat} (hback : Back skip s)
    (hshape : Shape s p h) (hnodup : h.elements.Nodup)
    (hfree : ∀ q, p = some q → Unpointed skip s q ∧ s.pprev q ≠ none)
    (hskip : ∀ slot, skip slot → ¬slot.In h.elements) (hdepth : h.elements.length ≤ depth) :
    ∃ s' r, mergePairs depth s p = .ok (s', r) ∧ Shape s' r (Heap.combine s.before h) ∧
      Back skip s' ∧ (∀ q, r = some q → Unpointed skip s' q) ∧
        Rearranged skip h.elements s s' := by
  induction depth generalizing s p h with
  | zero =>
      cases h with
      | nil =>
          obtain rfl : p = none := hshape
          exact ⟨s, none, by simp [mergePairs], rfl, hback, by simp, .refl _ _⟩
      | node a c t => simp at hdepth
  | succ depth ih =>
      match h, hshape with
      | .nil, hshape =>
          obtain rfl : p = none := hshape
          exact ⟨s, none, by simp [mergePairs], rfl, hback, by simp, .refl _ _⟩
      | .node a c .nil, hshape =>
          obtain ⟨rfl, hc, hnil⟩ := hshape
          obtain ⟨hfreeA, hpprev⟩ := hfree a rfl
          have hnext : s.get (.next a) = none := hnil
          refine ⟨s, some a, ?_, ⟨rfl, hc, hnil⟩, hback, ?_, .refl _ _⟩
          · simp [mergePairs, hpprev, hnext]
          · intro q hq
            exact Option.some.inj hq ▸ hfreeA
      | .node a c (.node b d t), hshape =>
          obtain rfl : p = some a := hshape.1
          obtain ⟨hfreeA, hpprev⟩ := hfree a rfl
          have hnext : s.get (.next a) = some b := hshape.2.2.1
          obtain ⟨hshapeA, hshapeB, hshapeT, hback₁, hfreeB, hfreeT, hre₁⟩ :=
            cut_pair hback hshape hnodup hskip rfl
          generalize hs₁ : (s.set (.next b) none).set (.next a) none = s₁ at *
          simp only [Heap.elements_node, List.length_cons, List.length_append] at hdepth hnodup hskip
          -- the tasks of the pair and those of the rest
          have hsplit : (a :: (c.elements ++ b :: (d.elements ++ t.elements))).Perm
              (((Heap.node a c .nil).elements ++ (Heap.node b d .nil).elements) ++ t.elements) := by
            simp
          obtain ⟨hpairNodup, htNodup, hapart⟩ :=
            List.nodup_append.mp (hsplit.nodup_iff.mp hnodup)
          have hsubPair : (Heap.node a c .nil).elements ++ (Heap.node b d .nil).elements ⊆
              a :: (c.elements ++ b :: (d.elements ++ t.elements)) :=
            fun x hx => hsplit.mem_iff.mpr (List.mem_append.mpr (.inl hx))
          have hsubRest : t.elements ⊆ a :: (c.elements ++ b :: (d.elements ++ t.elements)) :=
            fun x hx => hsplit.mem_iff.mpr (List.mem_append.mpr (.inr hx))
          have hfreeA₁ : Unpointed skip s₁ a := by
            intro slot hslot hget
            rw [← hs₁, get_set, get_set] at hget
            split_ifs at hget
            exact hfreeA slot hslot hget
          obtain ⟨s₂, lo, hmerge, hshapeLo, hback₂, hfreeLo, hre₂⟩ :=
            merge_spec hback₁ hshapeA (.node a c) hshapeB (.node b d) hpairNodup hfreeA₁
              (fun r hr => Option.some.inj hr ▸ hfreeB)
              (fun slot hslot hin => hskip slot hslot (hin.mono hsubPair))
          have htApart : ∀ x ∈ t.elements,
              x ∉ (Heap.node a c .nil).elements ++ (Heap.node b d .nil).elements :=
            fun x hx hpair => hapart x hpair x hx rfl
          have hqApart : ∀ q, s.get (.next b) = some q →
              q ∉ (Heap.node a c .nil).elements ++ (Heap.node b d .nil).elements :=
            fun q hq => htApart q (hshapeT.root_mem hq)
          obtain ⟨s₃, r, hrest, hshapeR, hback₃, hfreeR, hre₃⟩ :=
            ih hback₂ (hre₂.shape hshapeT htApart) htNodup
              (fun q hq => ⟨hre₂.unpointed q (hqApart q hq) (hfreeT q hq).1,
                hre₂.pprev q (hqApart q hq) ▸ (hfreeT q hq).2⟩)
              (fun slot hslot hin => hskip slot hslot (hin.mono hsubRest)) (by omega)
          have hbefore₁ : s₁.before = s.before := hre₁.content.before
          have hbefore₂ : s₂.before = s.before := hre₂.content.before.trans hbefore₁
          have hbefore₃ : s₃.before = s.before := hre₃.content.before.trans hbefore₂
          rw [hbefore₁] at hshapeLo
          rw [hbefore₂] at hshapeR
          -- the merged pair is untouched by the recursive call
          have hloElems := Heap.elements_merge s.before (Heap.NoSibling.node a c) (.node b d)
          have hrestElems := Heap.elements_combine s.before t
          have hloApart : ∀ x ∈ (Heap.merge s.before (.node a c .nil) (.node b d .nil)).elements,
              x ∉ t.elements :=
            fun x hx ht => htApart x ht (hloElems.mem_iff.mp hx)
          have hall := hsplit.trans (hloElems.append hrestElems).symm
          obtain ⟨s₄, root, hfinal, hshapeF, hback₄, hfreeF, hre₄⟩ :=
            merge_spec hback₃ (hre₃.shape hshapeLo hloApart) (Heap.noSibling_merge _ _ _) hshapeR
              (Heap.noSibling_combine _ _)
              (hall.nodup_iff.mp hnodup)
              (hre₃.unpointed lo (hloApart lo (hshapeLo.root_mem rfl)) hfreeLo) hfreeR
              (fun slot hslot hin => hskip slot hslot (hin.mono hall.symm.subset))
          rw [hbefore₃] at hshapeF
          refine ⟨s₄, some root, ?_, hshapeF, hback₄, ?_, ?_⟩
          · simp [mergePairs, hpprev, hnext, hs₁, hmerge, hrest, hfinal, Except.bind, Except.map]
          · intro q hq
            exact Option.some.inj hq ▸ hfreeF
          · exact (((hre₁.mono (by simp)).trans (hre₂.mono hsubPair)).trans
              (hre₃.mono hsubRest)).trans (hre₄.mono hall.symm.subset)

/-! ### The whole queue and `taskqueue_insert` -/

/-- The linked tasks form the heap: they hang together in one tree below `ctx->queue`, each is told which
place points to it, and every other task has no links. -/
structure Links (s : Taskqueue) (h : Heap Nat) : Prop where
  shape : Shape s (s.get .queue) h
  single : h.NoSibling
  nodup : h.elements.Nodup
  back : Back (fun _ => False) s
  idle : ∀ t, t ∉ h.elements →
    s.pprev t = none ∧ s.get (.next t) = none ∧ s.get (.children t) = none
  allocated : ∀ t ∈ h.elements, t < s.fresh

theorem Back.weaken (hback : Back (fun _ => False) s) : Back skip s :=
  fun slot t _ hget => hback slot t id hget

theorem Shape.pointed {slot : Slot} {h : Heap Nat} (hshape : Shape s (s.get slot) h) {t : Nat}
    (ht : t ∈ h.elements) : ∃ slot', s.get slot' = some t := by
  induction h generalizing slot with
  | nil => cases ht
  | node a c n ihc ihn =>
      obtain ⟨ha, hc, hn⟩ := hshape
      simp only [Heap.elements_node, List.mem_cons, List.mem_append] at ht
      rcases ht with rfl | ht | ht
      · exact ⟨slot, ha⟩
      · exact ihc hc ht
      · exact ihn hn ht

namespace Links

variable {h : Heap Nat}

/-- What a place points to is in the heap. -/
theorem mem_of_get (hlinks : Links s h) {slot : Slot} {t : Nat} (hget : s.get slot = some t) :
    t ∈ h.elements := by
  have howner : ∀ a, a ∉ h.elements → s.get (.next a) ≠ some t ∧ s.get (.children a) ≠ some t := by
    intro a ha
    obtain ⟨-, hnext, hchildren⟩ := hlinks.idle a ha
    simp [hnext, hchildren]
  cases slot with
  | queue => exact hlinks.shape.root_mem hget
  | next a =>
      by_cases ha : a ∈ h.elements
      · exact hlinks.shape.closed (show (Slot.next a).In h.elements from ha) hget
      · exact absurd hget (howner a ha).1
  | children a =>
      by_cases ha : a ∈ h.elements
      · exact hlinks.shape.closed (show (Slot.children a).In h.elements from ha) hget
      · exact absurd hget (howner a ha).2

theorem pprev_of_mem (hlinks : Links s h) {t : Nat} (ht : t ∈ h.elements) :
    ∃ slot, s.pprev t = some slot ∧ s.get slot = some t := by
  obtain ⟨slot, hget⟩ := hlinks.shape.pointed ht
  exact ⟨slot, hlinks.back slot t id hget, hget⟩

/-- `pprev` designates exactly the pointer to the task. -/
theorem pprev_iff (hlinks : Links s h) (slot : Slot) (t : Nat) :
    s.pprev t = some slot ↔ s.get slot = some t := by
  refine ⟨fun hpprev => ?_, hlinks.back slot t id⟩
  by_cases ht : t ∈ h.elements
  · obtain ⟨slot', hpprev', hget⟩ := hlinks.pprev_of_mem ht
    rwa [← Option.some.inj (hpprev'.symm.trans hpprev)]
  · rw [(hlinks.idle t ht).1] at hpprev
    cases hpprev

theorem linked_iff (hlinks : Links s h) (t : Nat) : s.linked t = true ↔ t ∈ h.elements := by
  rw [linked, Option.isSome_iff_exists]
  refine ⟨fun ⟨slot, hslot⟩ => hlinks.mem_of_get ((hlinks.pprev_iff slot t).mp hslot), fun ht => ?_⟩
  obtain ⟨slot, hslot, -⟩ := hlinks.pprev_of_mem ht
  exact ⟨slot, hslot⟩

/-- There are no more linked tasks than allocated ones. -/
theorem length_le (hlinks : Links s h) : h.elements.length ≤ s.fresh := by
  have hsub : h.elements ⊆ List.range s.fresh :=
    fun x hx => List.mem_range.mpr (hlinks.allocated x hx)
  simpa using (hlinks.nodup.subperm hsub).length_le

theorem init : Links Taskqueue.init .nil where
  shape := rfl
  single := .nil
  nodup := List.nodup_nil
  back := by
    intro slot t _ hget
    cases slot <;> cases hget
  idle := fun _ _ => ⟨rfl, rfl, rfl⟩
  allocated := by simp

end Links

theorem insert_links {h : Heap Nat} {e : Nat} (hlinks : Links s h) (he : e ∉ h.elements)
    (halloc : e < s.fresh) :
    ∃ s', s.insert e = .ok s' ∧ Links s' (Heap.merge s.before (.node e .nil .nil) h) ∧
      SameContent s s' := by
  obtain ⟨hpprev, hnext, hchildren⟩ := hlinks.idle e he
  have hshapeElem : Shape s (some e) (.node e .nil .nil) := ⟨rfl, hchildren, hnext⟩
  -- while the roots are merged, `ctx->queue` still points to the old root
  have hbackQueue : Back (· = .queue) s := hlinks.back.weaken
  obtain ⟨s₁, r, hmerge, hshape, hback, hfree, hre⟩ :=
    merge_spec hbackQueue hshapeElem (.node e .nil) hlinks.shape hlinks.single
      (by simpa using ⟨he, hlinks.nodup⟩) (fun slot _ hget => he (hlinks.mem_of_get hget))
      (fun q hq slot hslot hget => hslot (Option.some.inj
        ((hlinks.back slot q id hget).symm.trans (hlinks.back .queue q id hq))))
      (by rintro slot rfl; exact id)
  have helems := Heap.elements_merge s.before (Heap.NoSibling.node e .nil) hlinks.single
  have hmem : ∀ t, t ∈ (Heap.merge s.before (.node e .nil .nil) h).elements ↔
      t = e ∨ t ∈ h.elements := by
    intro t
    rw [helems.mem_iff]
    simp
  have hcontent : SameContent s ((s₁.set .queue (some r)).setPprev r (some .queue)) :=
    (hre.content.trans (.set _ _ _)).trans (.setPprev _ _ _)
  refine ⟨_, ?_, ?_, hcontent⟩
  · rw [insert, if_neg (by simp [hpprev, hnext, hchildren])]
    change Except.map _ (s.merge (some e) (s.get .queue)) = _
    rw [hmerge]
    rfl
  refine ⟨?_, Heap.noSibling_merge _ _ _, ?_, ?_, ?_, ?_⟩
  · rw [get_setPprev, get_set, if_pos rfl]
    refine hshape.frame fun slot hin => ?_
    rw [get_setPprev, get_set, if_neg]
    rintro rfl
    exact hin
  · rw [helems.nodup_iff]
    simpa using ⟨he, hlinks.nodup⟩
  · intro slot t _ hget
    rw [get_setPprev, get_set] at hget
    rw [pprev_setPprev, pprev_set]
    split_ifs at hget with hqueue
    · rw [if_pos (Option.some.inj hget).symm, hqueue]
    · rw [if_neg]
      · exact hback slot t hqueue hget
      · rintro rfl
        exact hfree slot hqueue hget
  · intro t ht
    rw [hmem, not_or] at ht
    have hout : t ∉ (Heap.node e Heap.nil Heap.nil).elements ++ h.elements := by simpa using ht
    obtain ⟨hp, hn, hc⟩ := hlinks.idle t ht.2
    have htr : t ≠ r := by
      rintro rfl
      exact hout (helems.mem_iff.mp (hshape.root_mem rfl))
    rw [pprev_setPprev, if_neg htr, pprev_set, hre.pprev t hout, get_setPprev, get_setPprev, get_set,
      get_set, if_neg (by simp), if_neg (by simp), hre.outside (.next t) hout,
      hre.outside (.children t) hout]
    exact ⟨hp, hn, hc⟩
  · intro t ht
    rw [hcontent.fresh]
    rcases (hmem t).mp ht with rfl | ht
    · exact halloc
    · exact hlinks.allocated t ht

/-! ### `taskqueue_remove` -/

theorem Shape.unique {p : Option Nat} {h h' : Heap Nat} (hshape : Shape s p h)
    (hshape' : Shape s p h') : h = h' := by
  induction h generalizing p h' with
  | nil =>
      obtain rfl : p = none := hshape
      cases h' with
      | nil => rfl
      | node b d t => cases hshape'.1
  | node a c t ihc iht =>
      obtain ⟨rfl, hc, ht⟩ := hshape
      cases h' with
      | nil => cases hshape'
      | node b d u =>
          obtain ⟨hab, hd, hu⟩ := hshape'
          obtain rfl := Option.some.inj hab
          rw [ihc hc hd, iht ht hu]

/-- What is below a task of the heap and what comes after it among its siblings. -/
theorem Shape.subtree {p : Option Nat} {h : Heap Nat} {e : Nat} (hshape : Shape s p h)
    (hnodup : h.elements.Nodup) (he : e ∈ h.elements) :
    ∃ c t, Shape s (s.get (.children e)) c ∧ Shape s (s.get (.next e)) t ∧
      h.elements.Perm (e :: (c.elements ++ (h.prune e).elements)) ∧
        t.elements ⊆ (h.prune e).elements := by
  induction h generalizing p with
  | nil => cases he
  | node a c t ihc iht =>
      obtain ⟨-, hc, ht⟩ := hshape
      rw [Heap.elements_node, List.nodup_cons, List.nodup_append] at hnodup
      obtain ⟨ha, hcNodup, htNodup, hdisjoint⟩ := hnodup
      by_cases hae : a = e
      · subst hae
        refine ⟨c, t, hc, ht, ?_, ?_⟩
        · simp [Heap.prune, Heap.replace]
        · simp [Heap.prune, Heap.replace]
      simp only [Heap.elements_node, List.mem_cons, List.mem_append] at he
      simp only [Heap.prune] at ihc iht ⊢
      simp only [Heap.replace, if_neg hae, Heap.elements_node]
      rcases he with rfl | he | he
      · exact absurd rfl hae
      · obtain ⟨c', t', hc', ht', hperm, hsub⟩ := ihc hc hcNodup he
        refine ⟨c', t', hc', ht', ?_, ?_⟩
        · rw [Heap.replace_of_notMem fun h => hdisjoint e he e h rfl]
          refine ((hperm.append_right t.elements).cons a).trans ((List.Perm.swap _ _ _).trans ?_)
          simpa using List.perm_middle.symm
        · exact fun x hx => by simp [hsub hx]
      · obtain ⟨c', t', hc', ht', hperm, hsub⟩ := iht ht htNodup he
        refine ⟨c', t', hc', ht', ?_, ?_⟩
        · rw [Heap.replace_of_notMem fun h => hdisjoint e h e he rfl]
          refine ((hperm.append_left c.elements).cons a).trans ?_
          refine (List.perm_middle.cons a).trans ((List.Perm.swap _ _ _).trans (.cons e ?_))
          refine (List.Perm.cons a ?_).trans List.perm_middle.symm
          rw [← List.append_assoc, ← List.append_assoc]
          exact List.perm_append_comm.append_right _
        · exact fun x hx => by simp [hsub hx]

/-- A forest that was changed at one task: the rest of the forest is still there, and the place that
pointed to the task now leads to what replaces it. -/
theorem Shape.replace {slot₀ slot : Slot} {e : Nat} {f : Heap Nat → Heap Nat → Heap Nat} {h : Heap Nat}
    (hshape : Shape s (s.get slot₀) h) (hslot : s.get slot = some e)
    (honly : ∀ x, s.get x = some e → x = slot)
    (hframe : ∀ x : Slot, x = slot₀ ∨ x.In (h.prune e).elements → x ≠ slot → s'.get x = s.get x)
    (hlocal : ∀ c t, Shape s (s.get (.children e)) c → Shape s (s.get (.next e)) t →
      Shape s' (s'.get slot) (f c t)) :
    Shape s' (s'.get slot₀) (h.replace e f) := by
  induction h generalizing slot₀ with
  | nil =>
      have hnone : s.get slot₀ = none := hshape
      have hne : slot₀ ≠ slot := by
        rintro rfl
        rw [hnone] at hslot
        cases hslot
      exact (hframe slot₀ (.inl rfl) hne).trans hnone
  | node a c t ihc iht =>
      obtain ⟨ha, hc, ht⟩ := hshape
      by_cases hae : a = e
      · subst hae
        rw [Heap.replace, if_pos rfl, honly slot₀ ha]
        exact hlocal c t hc ht
      · have hne : slot₀ ≠ slot := by
          rintro rfl
          exact hae (Option.some.inj (ha.symm.trans hslot))
        simp only [Heap.prune, Heap.replace, if_neg hae, Heap.elements_node] at hframe
        rw [Heap.replace, if_neg hae]
        refine ⟨(hframe slot₀ (.inl rfl) hne).trans ha, ihc hc fun x hx => hframe x (.inr ?_),
          iht ht fun x hx => hframe x (.inr ?_)⟩
        · rcases hx with rfl | hx
          · exact List.mem_cons_self
          · exact Slot.In.mono hx (by simp [Heap.prune])
        · rcases hx with rfl | hx
          · exact List.mem_cons_self
          · exact Slot.In.mono hx (by simp [Heap.prune])

/-- The memory after `taskqueue_unlink`. -/
theorem get_unlink (slot : Slot) (e : Nat) (x : Slot) :
    (s.unlink slot e).get x =
      if x = .next e then none else if x = slot then s.get (.next e) else s.get x := by
  simp [unlink]

theorem pprev_unlink (slot : Slot) (e t : Nat) :
    (s.unlink slot e).pprev t =
      if s.get (.next e) = some t then some slot else s.pprev t := by
  simp [unlink]

theorem sameContent_unlink (slot : Slot) (e : Nat) : SameContent s (s.unlink slot e) := by
  unfold unlink
  exact ((SameContent.set _ _ _).trans (.setPprevOf _ _ _)).trans (.set _ _ _)

theorem Back.unlink (hback : Back (fun _ => False) s) (slot : Slot) (e : Nat) :
    Back (fun _ => False) (s.unlink slot e) := by
  intro x t _ hget
  rw [get_unlink] at hget
  rw [pprev_unlink]
  split_ifs at hget with hnext hx
  · rw [if_pos hget, hx]
  · rw [if_neg fun h => hnext ?_]
    · exact hback x t id hget
    · exact Option.some.inj ((hback x t id hget).symm.trans (hback _ t id h))

/-- The memory in which the task `e` was taken out of the place `slot`, before its own links are
cleared: its children, combined, are linked there in front of its siblings. `c` is what was below `e`,
`t` what came after it. -/
structure Spliced (slot : Slot) (e : Nat) (c t : Heap Nat) (s s' : Taskqueue) : Prop where
  outside : ∀ x : Slot, ¬x.In c.elements → x ≠ slot → x ≠ .next e → s'.get x = s.get x
  next : s'.get (.next e) = none
  shape : Shape s' (s'.get slot) (Heap.attach (Heap.combine s.before c) t)
  back : Back (· = .children e) s'
  free : Unpointed (· = .children e) s' e
  pprev : ∀ x, x ∉ c.elements → s.get (.next e) ≠ some x → s'.pprev x = s.pprev x
  content : SameContent s s'

/-- Where the task sits in the heap: the place that points to it is none of its own fields, and no field
of what is below or after it. -/
structure Located (s : Taskqueue) (h : Heap Nat) (slot : Slot) (e : Nat) (c t : Heap Nat) : Prop where
  get : s.get slot = some e
  below : Shape s (s.get (.children e)) c
  after : Shape s (s.get (.next e)) t
  perm : h.elements.Perm (e :: (c.elements ++ (h.prune e).elements))
  sub : t.elements ⊆ (h.prune e).elements
  notBelow : e ∉ c.elements
  apart : ∀ x ∈ c.elements, x ∉ (h.prune e).elements
  notAfter : e ∉ (h.prune e).elements

theorem Links.locate {h : Heap Nat} (hlinks : Links s h) {e : Nat} (he : e ∈ h.elements) :
    ∃ slot c t, s.pprev e = some slot ∧ Located s h slot e c t := by
  obtain ⟨slot, hpprev, hget⟩ := hlinks.pprev_of_mem he
  obtain ⟨c, t, hc, ht, hperm, hsub⟩ := hlinks.shape.subtree hlinks.nodup he
  have hnodup := hperm.nodup_iff.mp hlinks.nodup
  rw [List.nodup_cons, List.mem_append, not_or, List.nodup_append] at hnodup
  obtain ⟨⟨hec, hep⟩, -, -, hapart⟩ := hnodup
  exact ⟨slot, c, t, hpprev, hget, hc, ht, hperm, hsub, hec,
    fun x hx hx' => hapart x hx x hx' rfl, hep⟩

namespace Located

variable {h c t : Heap Nat} {slot : Slot} {e : Nat}

theorem slot_notIn_below (hloc : Located s h slot e c t) : ¬slot.In c.elements :=
  fun hin => hloc.notBelow (hloc.below.closed hin hloc.get)

theorem slot_notIn_after (hloc : Located s h slot e c t) : ¬slot.In t.elements :=
  fun hin => hloc.notAfter (hloc.sub (hloc.after.closed hin hloc.get))

theorem slot_ne_children (hloc : Located s h slot e c t) : slot ≠ .children e := by
  rintro rfl
  exact hloc.notBelow (hloc.below.root_mem hloc.get)

theorem slot_ne_next (hloc : Located s h slot e c t) : slot ≠ .next e := by
  rintro rfl
  exact hloc.notAfter (hloc.sub (hloc.after.root_mem hloc.get))

theorem next_ne (hloc : Located s h slot e c t) : s.get (.next e) ≠ some e :=
  fun hget => hloc.notAfter (hloc.sub (hloc.after.root_mem hget))

/-- Unlinking the task frees it, and leaves what is below and after it as it is. -/
theorem unlink (hloc : Located s h slot e c t) (hlinks : Links s h) :
    Shape (s.unlink slot e) ((s.unlink slot e).get (.children e)) c ∧
      Shape (s.unlink slot e) (s.get (.next e)) t ∧
        Unpointed (· = .children e) (s.unlink slot e) e := by
  have hframe : ∀ f : Heap Nat, e ∉ f.elements → ¬slot.In f.elements →
      ∀ x : Slot, x.In f.elements → (s.unlink slot e).get x = s.get x := by
    intro f he hslot x hin
    rw [get_unlink, if_neg, if_neg]
    · rintro rfl
      exact hslot hin
    · rintro rfl
      exact he hin
  refine ⟨?_, hloc.after.frame (hframe t (fun ht => hloc.notAfter (hloc.sub ht)) hloc.slot_notIn_after),
    ?_⟩
  · rw [get_unlink, if_neg (by simp), if_neg hloc.slot_ne_children.symm]
    exact hloc.below.frame (hframe c hloc.notBelow hloc.slot_notIn_below)
  · intro x _ hget
    rw [get_unlink] at hget
    split_ifs at hget with _ hx
    · exact hloc.next_ne hget
    · exact hx (Option.some.inj ((hlinks.back x e id hget).symm.trans (hlinks.back slot e id hloc.get)))

end Located

/-- The middle part of `taskqueue_remove`: unlink the task, merge its children in pairs, link the merged
tree where the task was. -/
theorem splice_spec {h c t : Heap Nat} {slot : Slot} {e : Nat} (hlinks : Links s h)
    (hloc : Located s h slot e c t) :
    ∃ s₂ merged s₃,
      mergePairs (s.unlink slot e).fresh (s.unlink slot e) ((s.unlink slot e).get (.children e)) =
        .ok (s₂, merged) ∧
      s₂.linkMerged slot merged = .ok s₃ ∧ Spliced slot e c t s s₃ := by
  obtain ⟨hbelow, hafter, hfreeElem⟩ := hloc.unlink hlinks
  have hback₁ := hlinks.back.unlink slot e
  have hnodup := hloc.perm.nodup_iff.mp hlinks.nodup
  rw [List.nodup_cons, List.nodup_append] at hnodup
  have hget₁ := get_unlink (s := s) slot e
  have hcontent₁ := sameContent_unlink (s := s) slot e
  have hpprev₁ := pprev_unlink (s := s) slot e
  generalize s.unlink slot e = s₁ at *
  have hdepth : c.elements.length ≤ s₁.fresh := by
    have hlength := hloc.perm.length_eq
    have htotal := hlinks.length_le
    rw [List.length_cons, List.length_append] at hlength
    rw [hcontent₁.fresh]
    omega
  -- `e->children` keeps pointing to the first child while the children are merged
  have hbackChildren : Back (· = .children e) s₁ := hback₁.weaken
  obtain ⟨s₂, merged, hpairs, hshape₂, hback₂, hfree₂, hre₂⟩ :=
    mergePairs_spec s₁.fresh hbackChildren hbelow hnodup.2.1
      (fun q hq => ⟨fun x hx hget => hx (Option.some.inj
        ((hback₁ x q id hget).symm.trans (hback₁ (.children e) q id hq))), by
          rw [hback₁ (.children e) q id hq]
          simp⟩)
      (by rintro x rfl; exact hloc.notBelow) hdepth
  rw [hcontent₁.before] at hshape₂
  have hafterApart : ∀ x ∈ t.elements, x ∉ c.elements :=
    fun x hx hc => hloc.apart x hc (hloc.sub hx)
  have hafter₂ := hre₂.shape hafter hafterApart
  have hslot₂ : s₂.get slot = s.get (.next e) := by
    rw [hre₂.outside slot hloc.slot_notIn_below, hget₁, if_neg hloc.slot_ne_next, if_pos rfl]
  have hnext₂ : s₂.get (.next e) = none := by
    rw [hre₂.outside (.next e) hloc.notBelow, hget₁, if_pos rfl]
  have hfreeElem₂ := hre₂.unpointed e hloc.notBelow hfreeElem
  have houtside₂ : ∀ x : Slot, ¬x.In c.elements → x ≠ slot → x ≠ .next e → s₂.get x = s.get x := by
    intro x hin hx hnext
    rw [hre₂.outside x hin, hget₁, if_neg hnext, if_neg hx]
  have hpprev₂ : ∀ x, x ∉ c.elements → s.get (.next e) ≠ some x → s₂.pprev x = s.pprev x := by
    intro x hx hnext
    rw [hre₂.pprev x hx, hpprev₁, if_neg hnext]
  have hcontent₂ := hcontent₁.trans hre₂.content
  have hcombined := Heap.elements_combine s.before c
  have hsingle := Heap.noSibling_combine s.before c
  cases hcase : Heap.combine s.before c with
  | nil =>
      rw [hcase] at hshape₂
      obtain rfl : merged = none := hshape₂
      refine ⟨s₂, none, s₂, hpairs, rfl, houtside₂, hnext₂, ?_, hback₂, hfreeElem₂, hpprev₂, hcontent₂⟩
      rw [hslot₂, hcase]
      exact hafter₂
  | node m mc ms =>
      rw [hcase] at hshape₂ hcombined hsingle
      cases hsingle
      obtain ⟨rfl, hmc, hmnext⟩ := hshape₂
      have hm : m ∈ c.elements := hcombined.mem_iff.mp (by simp)
      have hmne : m ≠ e := fun hme => hloc.notBelow (hme ▸ hm)
      have hslotm : slot ≠ .next m := by
        rintro rfl
        exact hloc.slot_notIn_below hm
      obtain ⟨s₃, hlink, hat⟩ := link_ok slot hmnext
      have hback₃ := hat.back hback₂ hloc.slot_ne_children (hfree₂ m rfl)
      refine ⟨s₂, some m, s₃, hpairs, hlink, ?_, ?_, ?_, hback₃, ?_, ?_, hcontent₂.trans hat.content⟩
      · intro x hin hx hnext
        rw [hat.get, if_neg hx, if_neg, houtside₂ x hin hx hnext]
        rintro rfl
        exact hin hm
      · rw [hat.get, if_neg hloc.slot_ne_next.symm, if_neg (by simpa using hmne.symm), hnext₂]
      · rw [hcase, hat.get, if_pos rfl]
        have hmNodup : m ∉ mc.elements := by
          have := hcombined.nodup_iff.mpr hnodup.2.1
          simp only [Heap.elements_node, Heap.elements_nil, List.append_nil, List.nodup_cons] at this
          exact this.1
        have hmcSub : mc.elements ⊆ c.elements :=
          fun x hx => hcombined.mem_iff.mp (by simp [hx])
        have hframe : ∀ f : Heap Nat, ¬slot.In f.elements → m ∉ f.elements →
            ∀ x : Slot, x.In f.elements → s₃.get x = s₂.get x := by
          intro f hslot hmf x hin
          rw [hat.get, if_neg, if_neg]
          · rintro rfl
            exact hmf hin
          · rintro rfl
            exact hslot hin
        refine ⟨rfl, ?_, ?_⟩
        · rw [hat.get, if_neg, if_neg (by simp)]
          · exact hmc.frame (hframe mc (fun h => hloc.slot_notIn_below (h.mono hmcSub)) hmNodup)
          · rintro rfl
            exact hloc.slot_notIn_below hm
        · rw [hat.get, if_neg hslotm.symm, if_pos rfl, hslot₂]
          exact hafter₂.frame (hframe t hloc.slot_notIn_after fun h => hafterApart m h hm)
      · intro x hx hget
        rw [hat.get] at hget
        split_ifs at hget
        · exact hmne (Option.some.inj hget)
        · exact hfreeElem₂ slot hloc.slot_ne_children hget
        · exact hfreeElem₂ x hx hget
      · intro x hx hnext
        rw [hat.pprev, if_neg (hslot₂ ▸ hnext), if_neg fun h : x = m => hx (h ▸ hm), hpprev₂ x hx hnext]

theorem remove_links {h : Heap Nat} {e : Nat} (hlinks : Links s h) (he : e ∈ h.elements) :
    ∃ s', s.remove e = .ok s' ∧ Links s' (h.remove s.before e) ∧ SameContent s s' := by
  obtain ⟨slot, c, t, hpprev, hloc⟩ := hlinks.locate he
  obtain ⟨s₂, merged, s₃, hpairs, hlink, hspliced⟩ := splice_spec hlinks hloc
  have hcontent : SameContent s ((s₃.setPprev e none).set (.children e) none) :=
    (hspliced.content.trans (.setPprev _ _ _)).trans (.set _ _ _)
  have helems : h.elements.Perm (e :: (h.remove s.before e).elements) :=
    Heap.elements_remove hlinks.nodup he
  have hget : ∀ x, ((s₃.setPprev e none).set (.children e) none).get x =
      if x = .children e then none else s₃.get x := by
    intro x
    rw [get_set, get_setPprev]
  refine ⟨_, ?_, ?_, hcontent⟩
  · simp only [remove, hpprev, hpairs, hlink, Except.bind, Except.map]
  refine ⟨?_, Heap.noSibling_remove hlinks.single, ?_, ?_, ?_, ?_⟩
  · -- outside the children of `e` the forest is as before
    refine hlinks.shape.replace hloc.get (fun x hx => ?_) (fun x hx hne => ?_) (fun c' t' hc' ht' => ?_)
    · exact Option.some.inj ((hlinks.back x e id hx).symm.trans (hlinks.back slot e id hloc.get))
    · have hin : ¬x.In c.elements := by
        rcases hx with rfl | hx
        · exact id
        · cases x with
          | queue => exact id
          | next a => exact fun ha => hloc.apart a ha hx
          | children a => exact fun ha => hloc.apart a ha hx
      have hown : x ≠ .next e ∧ x ≠ .children e := by
        rcases hx with rfl | hx
        · simp
        · constructor
          · rintro rfl
            exact hloc.notAfter hx
          · rintro rfl
            exact hloc.notAfter hx
      rw [hget, if_neg hown.2, hspliced.outside x hin hne hown.1]
    · rw [hc'.unique hloc.below, ht'.unique hloc.after, hget, if_neg hloc.slot_ne_children]
      refine hspliced.shape.frame fun x hin => ?_
      rw [hget, if_neg]
      rintro rfl
      rw [Slot.In, Heap.elements_attach (Heap.noSibling_combine _ _), List.mem_append,
        (Heap.elements_combine s.before c).mem_iff] at hin
      exact hin.elim hloc.notBelow fun h => hloc.notAfter (hloc.sub h)
  · exact (List.nodup_cons.mp (helems.nodup_iff.mp hlinks.nodup)).2
  · intro x a _ hgetx
    rw [hget] at hgetx
    split_ifs at hgetx with hx
    rw [pprev_set, pprev_setPprev, if_neg]
    · exact hspliced.back x a hx hgetx
    · rintro rfl
      exact hspliced.free x hx hgetx
  · intro x hx
    rw [pprev_set, pprev_setPprev, hget, hget]
    by_cases hxe : x = e
    · subst hxe
      simp [hspliced.next]
    · have hout : x ∉ h.elements := by
        rw [helems.mem_iff, List.mem_cons, not_or]
        exact ⟨hxe, hx⟩
      obtain ⟨hp, hn, hc⟩ := hlinks.idle x hout
      have hxc : x ∉ c.elements := fun h => hout (hloc.perm.mem_iff.mpr (by simp [h]))
      have hslotNext : Slot.next x ≠ slot := by
        rintro rfl
        rw [hloc.get] at hn
        cases hn
      have hslotChildren : Slot.children x ≠ slot := by
        rintro rfl
        rw [hloc.get] at hc
        cases hc
      rw [if_neg hxe, if_neg (by simp), if_neg (by simpa using hxe),
        hspliced.pprev x hxc fun h => hout (hlinks.mem_of_get h),
        hspliced.outside (.next x) hxc hslotNext (by simpa using hxe),
        hspliced.outside (.children x) hxc hslotChildren (by simp)]
      exact ⟨hp, hn, hc⟩
  · intro x hx
    rw [hcontent.fresh]
    exact hlinks.allocated x (helems.mem_iff.mpr (List.mem_cons_of_mem _ hx))

/-- The linked tasks form the heap, and no child is due before its parent. -/
structure Represents (s : Taskqueue) (h : Heap Nat) : Prop extends Links s h where
  ordered : h.Ordered s.NotLater

theorem Represents.init : Represents Taskqueue.init .nil := ⟨Links.init, trivial⟩

/-- The task that the queue points to is due no later than any other one. -/
theorem Represents.root_le {h : Heap Nat} (hrep : Represents s h) {root t : Nat}
    (hroot : s.get .queue = some root) (ht : t ∈ h.elements) :
    timespecCmp (s.due root) (s.due t) ≤ 0 := by
  have hshape := hrep.shape
  have hordered := hrep.ordered
  cases hrep.single with
  | nil => cases ht
  | node a c =>
      obtain rfl : root = a := Option.some.inj (hroot.symm.trans hshape.1)
      exact Heap.root_le hordered ht

theorem insert_spec {h : Heap Nat} {e : Nat} (hrep : Represents s h) (he : e ∉ h.elements)
    (halloc : e < s.fresh) :
    ∃ s' h', s.insert e = .ok s' ∧ Represents s' h' ∧
      (∀ x, x ∈ h'.elements ↔ x = e ∨ x ∈ h.elements) ∧ SameContent s s' := by
  obtain ⟨s', hinsert, hlinks, hcontent⟩ := insert_links hrep.toLinks he halloc
  refine ⟨s', _, hinsert, ⟨hlinks, ?_⟩, fun x => ?_, hcontent⟩
  · rw [hcontent.notLater]
    exact Heap.ordered_merge (.node e .nil) hrep.single (s.decides _) ⟨by simp, trivial, trivial⟩
      hrep.ordered
  · rw [(Heap.elements_merge s.before (.node e .nil) hrep.single).mem_iff]
    simp

/-- `taskqueue_remove` of a linked task whose due time may have been changed in place: it is the other
tasks that have to be in order. -/
theorem remove_changed {h : Heap Nat} {e : Nat} {R : Nat → Nat → Prop} [IsTrans Nat R]
    (hlinks : Links s h) (he : e ∈ h.elements) (hordered : h.Ordered R)
    (hsame : ∀ x y, x ≠ e → y ≠ e → (R x y ↔ s.NotLater x y)) :
    ∃ s' h', s.remove e = .ok s' ∧ Represents s' h' ∧
      (∀ x, x ∈ h'.elements ↔ x ≠ e ∧ x ∈ h.elements) ∧ SameContent s s' := by
  obtain ⟨s', hremove, hlinks', hcontent⟩ := remove_links hlinks he
  have hnotMem : e ∉ (h.remove s.before e).elements := Heap.notMem_remove hlinks.nodup
  have hdecides : Heap.Decides s.before R (h.elements.filter (· ≠ e)) := by
    intro x hx y hy
    have hxe : x ≠ e := by simpa using (List.mem_filter.mp hx).2
    have hye : y ≠ e := by simpa using (List.mem_filter.mp hy).2
    rw [hsame x y hxe hye, hsame y x hye hxe]
    exact s.decides _ x hx y hy
  refine ⟨s', _, hremove, ⟨hlinks', ?_⟩, fun x => ?_, hcontent⟩
  · rw [hcontent.notLater]
    refine (Heap.ordered_remove hlinks.nodup hdecides hordered).1.congr fun x hx y hy => ?_
    exact (hsame x y (fun h => hnotMem (h ▸ hx)) (fun h => hnotMem (h ▸ hy))).mp
  · rw [(Heap.elements_remove hlinks.nodup he).mem_iff, List.mem_cons]
    constructor
    · exact fun hx => ⟨fun h => hnotMem (h ▸ hx), .inr hx⟩
    · exact fun hx => hx.2.resolve_left hx.1

theorem remove_spec {h : Heap Nat} (hrep : Represents s h) (e : Nat) :
    ∃ s' h', s.remove e = .ok s' ∧ Represents s' h' ∧
      (∀ x, x ∈ h'.elements ↔ x ≠ e ∧ x ∈ h.elements) ∧ SameContent s s' := by
  by_cases he : e ∈ h.elements
  · exact remove_changed hrep.toLinks he hrep.ordered fun _ _ _ _ => Iff.rfl
  · obtain ⟨hpprev, hnext, hchildren⟩ := hrep.idle e he
    refine ⟨s, h, ?_, hrep, fun x => ?_, .refl s⟩
    · simp [remove, hpprev, hnext, hchildren]
    · exact ⟨fun hx => ⟨fun h => he (h ▸ hx), hx⟩, And.right⟩

/-! ### Posting and rescheduling -/

theorem schedule_task (s : Taskqueue) : s.schedule.task = s.task ∧ s.schedule.fresh = s.fresh ∧
    s.schedule.queue = s.queue := by
  unfold schedule
  split <;> simp

theorem Represents.congr {h : Heap Nat} (hrep : Represents s h) (hget : ∀ slot, s'.get slot = s.get slot)
    (hpprev : ∀ t, s'.pprev t = s.pprev t) (hdue : ∀ t ∈ h.elements, s'.due t = s.due t)
    (hfresh : s.fresh ≤ s'.fresh) : Represents s' h where
  shape := hget .queue ▸ hrep.shape.frame fun slot _ => hget slot
  single := hrep.single
  nodup := hrep.nodup
  back := by
    intro slot t hskip hslot
    rw [hpprev]
    exact hrep.back slot t hskip (hget slot ▸ hslot)
  idle := by
    intro t ht
    rw [hpprev, hget, hget]
    exact hrep.idle t ht
  allocated := fun t ht => (hrep.allocated t ht).trans_le hfresh
  ordered := by
    refine hrep.ordered.congr fun x hx y hy => ?_
    unfold NotLater
    rw [hdue x hx, hdue y hy]
    exact id

theorem Represents.schedule {h : Heap Nat} (hrep : Represents s h) : Represents s.schedule h := by
  obtain ⟨htask, hfresh, hqueue⟩ := s.schedule_task
  refine hrep.congr (fun slot => ?_) (fun t => ?_) (fun t _ => ?_) hfresh.ge
  · cases slot <;> simp only [get, htask, hqueue]
  · rw [pprev, pprev, htask]
  · rw [due, due, htask]

theorem alloc_spec {h : Heap Nat} (hrep : Represents s h) (due : Timespec) (function : Nat)
    (cleanup : Option Nat) (data : Nat) : Represents (s.alloc due function cleanup data) h := by
  have hfresh : s.fresh ∉ h.elements := fun hmem => lt_irrefl _ (hrep.allocated _ hmem)
  obtain ⟨hpprev, hnext, hchildren⟩ := hrep.idle s.fresh hfresh
  refine hrep.congr (fun slot => ?_) (fun t => ?_) (fun t ht => ?_) (Nat.le_succ _)
  · cases slot with
    | queue => rfl
    | next t =>
        simp only [alloc, get, Function.update_apply]
        split_ifs with ht
        · exact (ht ▸ hnext).symm
        · rfl
    | children t =>
        simp only [alloc, get, Function.update_apply]
        split_ifs with ht
        · exact (ht ▸ hchildren).symm
        · rfl
  · simp only [alloc, pprev, Function.update_apply]
    split_ifs with ht
    · exact (ht ▸ hpprev).symm
    · rfl
  · have hne : t ≠ s.fresh := fun h => hfresh (h ▸ ht)
    simp [alloc, Taskqueue.due, hne]

theorem postTask_spec {h : Heap Nat} (hrep : Represents s h) (due : Timespec) (function : Nat)
    (cleanup : Option Nat) (data : Nat) :
    ∃ s' h', s.postTask due function cleanup data = .ok s' ∧ Represents s' h' ∧
      (∀ x, x ∈ h'.elements ↔ x = s.fresh ∨ x ∈ h.elements) ∧ s'.fresh = s.fresh + 1 ∧
        ∀ x, unlinked (s'.task x) = if x = s.fresh then
          ⟨none, none, none, due, false, function, cleanup, data⟩ else unlinked (s.task x) := by
  have hfresh : s.fresh ∉ h.elements := fun hmem => lt_irrefl _ (hrep.allocated _ hmem)
  obtain ⟨s₁, h', hinsert, hrep', hmem, hcontent⟩ :=
    insert_spec (alloc_spec hrep due function cleanup data) hfresh (Nat.lt_succ_self _)
  obtain ⟨htask, hfresh', -⟩ := s₁.schedule_task
  refine ⟨s₁.schedule, h', ?_, hrep'.schedule, hmem, hfresh'.trans hcontent.fresh, fun x => ?_⟩
  · rw [postTask, hinsert]
    rfl
  · rw [htask, hcontent.task x]
    simp only [alloc, Function.update_apply]
    split_ifs <;> rfl

/-- `reschedule_task` gives a queued task its new due time and keeps the queue in order. -/
theorem rescheduleTask_spec {h : Heap Nat} (hrep : Represents s h) (e : Nat) (due : Timespec) :
    ∃ s' h', s.rescheduleTask e due = .ok s' ∧ Represents s' h' ∧
      (∀ x, x ∈ h'.elements ↔ x ∈ h.elements) ∧ s'.fresh = s.fresh ∧
        ∀ x, unlinked (s'.task x) = if x = e ∧ e ∈ h.elements then
          { unlinked (s.task x) with due := due } else unlinked (s.task x) := by
  by_cases he : e ∈ h.elements
  · have hlinked : s.linked e = true := (hrep.linked_iff e).mpr he
    by_cases hcmp : timespecCmp due (s.due e) = 0
    · have hdue := (timespecCmp_eq_zero_iff _ _).mp hcmp
      refine ⟨s, h, by simp [rescheduleTask, hlinked, hcmp], hrep, fun x => Iff.rfl, rfl, fun x => ?_⟩
      split_ifs with hx
      · rw [hdue, hx.1]
        rfl
      · rfl
    -- the task is taken out while it already has its new due time
    have hlinks : Links (s.setDue e due) h := by
      refine ⟨?_, hrep.single, hrep.nodup, ?_, ?_, hrep.allocated⟩
      · rw [get_setDue]
        exact hrep.shape.frame fun slot _ => get_setDue s e due slot
      · intro slot t hskip hget
        rw [pprev_setDue]
        exact hrep.back slot t hskip (get_setDue s e due slot ▸ hget)
      · intro t ht
        rw [pprev_setDue, get_setDue, get_setDue]
        exact hrep.idle t ht
    obtain ⟨s₁, h₁, hremove, hrep₁, hmem₁, hcontent₁⟩ := remove_changed hlinks he hrep.ordered <| by
      intro x y hx hy
      rw [NotLater, NotLater, due_setDue, due_setDue, if_neg hx, if_neg hy]
    have hfresh₁ : s₁.fresh = s.fresh := hcontent₁.fresh
    obtain ⟨s₂, h₂, hinsert, hrep₂, hmem₂, hcontent₂⟩ :=
      insert_spec hrep₁ (fun hmem => ((hmem₁ e).mp hmem).1 rfl) (hfresh₁ ▸ hrep.allocated e he)
    obtain ⟨htask, hfresh', -⟩ := s₂.schedule_task
    refine ⟨s₂.schedule, h₂, ?_, hrep₂.schedule, fun x => ?_, ?_, fun x => ?_⟩
    · simp [rescheduleTask, hlinked, hcmp, hremove, hinsert, Except.bind, Except.map]
    · rw [hmem₂, hmem₁]
      by_cases hx : x = e
      · simp [hx, he]
      · simp [hx]
    · rw [hfresh', hcontent₂.fresh, hfresh₁]
    · rw [htask, hcontent₂.task x, hcontent₁.task x]
      simp only [setDue, modify, Function.update_apply]
      split_ifs <;> simp_all [unlinked]
  · have hlinked : s.linked e = false := by
      rw [Bool.eq_false_iff, ne_eq, hrep.linked_iff]
      exact he
    refine ⟨s, h, by simp [rescheduleTask, hlinked], hrep, fun x => Iff.rfl, rfl, fun x => ?_⟩
    rw [if_neg fun hx => he hx.2]

end Taskqueue

end Snapcastc
