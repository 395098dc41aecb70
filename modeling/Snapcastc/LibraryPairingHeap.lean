import Mathlib

/-! Pairing heaps from which an inner node can be taken out. The heaps and their merging are those of
Batteries; the order is a relation of its own, so that the test that decides a merge need not be the
order itself, and need only agree with it on the elements at hand. -/

namespace Batteries.PairingHeapImp.Heap

variable {α : Type*}

/-- The elements, each root before what is below it and before its siblings. -/
def elements : Heap α → List α
  | .nil => []
  | .node a c s => a :: (c.elements ++ s.elements)

/-- The roots of the forest. -/
def roots : Heap α → List α
  | .nil => []
  | .node a _ s => a :: s.roots

@[simp] theorem elements_nil : (nil : Heap α).elements = [] := rfl

@[simp] theorem elements_node (a : α) (c s : Heap α) :
    (node a c s).elements = a :: (c.elements ++ s.elements) := rfl

@[simp] theorem roots_nil : (nil : Heap α).roots = [] := rfl

@[simp] theorem roots_node (a : α) (c s : Heap α) : (node a c s).roots = a :: s.roots := rfl

theorem mem_elements_of_mem_roots {x : α} {h : Heap α} (hx : x ∈ h.roots) : x ∈ h.elements := by
  induction h with
  | nil => exact hx
  | node a c s _ ihs =>
      rw [roots_node, List.mem_cons] at hx
      rw [elements_node, List.mem_cons, List.mem_append]
      exact hx.imp id fun hs => .inr (ihs hs)

theorem merge_node (le : α → α → Bool) (a : α) (c s : Heap α) (b : α) (d t : Heap α) :
    merge le (node a c s) (node b d t) =
      if le a b then node a (node b d c) nil else node b (node a c d) nil := rfl

theorem elements_merge (le : α → α → Bool) {h₁ h₂ : Heap α} (hsingle₁ : h₁.NoSibling)
    (hsingle₂ : h₂.NoSibling) : (merge le h₁ h₂).elements.Perm (h₁.elements ++ h₂.elements) := by
  cases hsingle₁ with
  | nil =>
      cases hsingle₂ with
      | nil => exact .refl _
      | node b d => exact .refl _
  | node a c =>
      cases hsingle₂ with
      | nil => simp [merge]
      | node b d =>
          rw [merge_node]
          split_ifs
          · have hswap : (b :: d.elements ++ c.elements).Perm (c.elements ++ b :: d.elements) :=
              List.perm_append_comm
            simpa using hswap.cons a
          · have hmiddle : (b :: (a :: c.elements ++ d.elements)).Perm
                (a :: c.elements ++ b :: d.elements) := List.perm_middle.symm
            simpa using hmiddle

theorem elements_combine (le : α → α → Bool) (h : Heap α) :
    (combine le h).elements.Perm h.elements := by
  fun_induction combine le h with
  | case1 a₁ c₁ a₂ c₂ s ih =>
      refine (elements_merge le (noSibling_merge _ _ _) (noSibling_combine _ _)).trans ?_
      have hpair := elements_merge le (NoSibling.node a₁ c₁) (NoSibling.node a₂ c₂)
      refine (List.Perm.append hpair ih).trans ?_
      simp
  | case2 h => exact .refl _

/-- A tree put in front of a forest. -/
def attach : Heap α → Heap α → Heap α
  | .nil, s => s
  | .node a c _, s => .node a c s

theorem elements_attach {h : Heap α} (hsingle : h.NoSibling) (s : Heap α) :
    (attach h s).elements = h.elements ++ s.elements := by
  cases hsingle with
  | nil => rfl
  | node a c => simp [attach]

/-! ### Order -/

/-- No child comes before its parent. -/
def Ordered (R : α → α → Prop) : Heap α → Prop
  | .nil => True
  | .node a c s => (∀ b ∈ c.roots, R a b) ∧ c.Ordered R ∧ s.Ordered R

/-- The test that decides a merge agrees with the order on a list of elements. -/
def Decides (before : α → α → Bool) (R : α → α → Prop) (l : List α) : Prop :=
  ∀ x ∈ l, ∀ y ∈ l, (before x y = true → R x y) ∧ (before x y = false → R y x)

theorem Decides.mono {before : α → α → Bool} {R : α → α → Prop} {l l' : List α}
    (h : Decides before R l) (hsub : l' ⊆ l) : Decides before R l' :=
  fun x hx y hy => h x (hsub hx) y (hsub hy)

theorem Ordered.congr {R R' : α → α → Prop} {h : Heap α} (hordered : h.Ordered R)
    (hsame : ∀ x ∈ h.elements, ∀ y ∈ h.elements, R x y → R' x y) : h.Ordered R' := by
  induction h with
  | nil => trivial
  | node a c s ihc ihs =>
      obtain ⟨htop, hc, hs⟩ := hordered
      simp only [elements_node, List.mem_cons, List.mem_append] at hsame
      refine ⟨?_, ihc hc ?_, ihs hs ?_⟩
      · intro b hb
        exact hsame a (.inl rfl) b (.inr (.inl (mem_elements_of_mem_roots hb))) (htop b hb)
      · exact fun x hx y hy => hsame x (.inr (.inl hx)) y (.inr (.inl hy))
      · exact fun x hx y hy => hsame x (.inr (.inr hx)) y (.inr (.inr hy))

variable {before : α → α → Bool} {R : α → α → Prop}

theorem ordered_merge {h₁ h₂ : Heap α} (hsingle₁ : h₁.NoSibling) (hsingle₂ : h₂.NoSibling)
    (hdecides : Decides before R (h₁.elements ++ h₂.elements)) (hordered₁ : h₁.Ordered R)
    (hordered₂ : h₂.Ordered R) : (merge before h₁ h₂).Ordered R := by
  cases hsingle₁ with
  | nil =>
      cases hsingle₂ with
      | nil => trivial
      | node b d => exact hordered₂
  | node a c =>
      cases hsingle₂ with
      | nil => exact hordered₁
      | node b d =>
          obtain ⟨hyes, hno⟩ := hdecides a (by simp) b (by simp)
          obtain ⟨hc, hc', -⟩ := hordered₁
          obtain ⟨hd, hd', -⟩ := hordered₂
          rw [merge_node]
          split_ifs with hbefore
          · refine ⟨?_, ⟨hd, hd', hc'⟩, trivial⟩
            intro x hx
            rcases List.mem_cons.mp hx with rfl | hx
            · exact hyes hbefore
            · exact hc x hx
          · refine ⟨?_, ⟨hc, hc', hd'⟩, trivial⟩
            intro x hx
            rcases List.mem_cons.mp hx with rfl | hx
            · exact hno (by simpa using hbefore)
            · exact hd x hx

/-- Every root of a merged queue was a root of one of the two. -/
theorem mem_roots_merge {h₁ h₂ : Heap α} {x : α} (hx : x ∈ (merge before h₁ h₂).roots) :
    x ∈ h₁.roots ∨ x ∈ h₂.roots := by
  cases h₁ <;> cases h₂ <;> unfold merge at hx <;> simp_all
  split_ifs at hx <;> simp_all

theorem mem_roots_combine {h : Heap α} {x : α} (hx : x ∈ (combine before h).roots) :
    x ∈ h.roots := by
  fun_induction combine before h with
  | case1 a₁ c₁ a₂ c₂ s ih =>
      rcases mem_roots_merge hx with hpair | hrest
      · rcases mem_roots_merge hpair with h₁ | h₂
        · simp_all
        · simp_all
      · simp [ih hrest]
  | case2 h => exact hx

theorem ordered_combine {h : Heap α} (hdecides : Decides before R h.elements)
    (hordered : h.Ordered R) : (combine before h).Ordered R := by
  fun_induction combine before h with
  | case1 a₁ c₁ a₂ c₂ s ih =>
      obtain ⟨htop₁, hc₁, htop₂, hc₂, hs⟩ := hordered
      have hpairElems := elements_merge before (NoSibling.node a₁ c₁) (NoSibling.node a₂ c₂)
      have hpair : (merge before (node a₁ c₁ nil) (node a₂ c₂ nil)).Ordered R := by
        refine ordered_merge (.node _ _) (.node _ _) (hdecides.mono ?_) ⟨htop₁, hc₁, trivial⟩
          ⟨htop₂, hc₂, trivial⟩
        intro x
        simp only [elements_node, elements_nil, List.mem_append, List.mem_cons]
        tauto
      refine ordered_merge (noSibling_merge _ _ _) (noSibling_combine _ _) (hdecides.mono ?_) hpair
        (ih (hdecides.mono ?_) hs)
      · intro x hx
        rw [List.mem_append] at hx
        rcases hx with hx | hx
        · have := hpairElems.mem_iff.mp hx
          simp only [elements_node, elements_nil, List.mem_append, List.mem_cons] at this ⊢
          tauto
        · have := (elements_combine before s).mem_iff.mp hx
          simp only [elements_node, List.mem_append, List.mem_cons]
          tauto
      · intro x hx
        simp only [elements_node, List.mem_append, List.mem_cons]
        tauto
  | case2 h => exact hordered

theorem ordered_attach {h s : Heap α} (hh : h.Ordered R) (hs : s.Ordered R) :
    (attach h s).Ordered R := by
  cases h with
  | nil => exact hs
  | node a c t => exact ⟨hh.1, hh.2.1, hs⟩

theorem mem_roots_attach {h s : Heap α} {x : α} (hx : x ∈ (attach h s).roots) :
    x ∈ h.roots ∨ x ∈ s.roots := by
  cases h with
  | nil => exact .inr hx
  | node a c t =>
      rw [attach, roots_node, List.mem_cons] at hx
      exact hx.imp (fun h => by simp [h]) id

/-- In an ordered tree the root comes before every element. -/
theorem root_le [IsTrans α R] [Std.Refl R] {a : α} {c s : Heap α} (hordered : (node a c s).Ordered R)
    {x : α} (hx : x ∈ (node a c nil).elements) : R a x := by
  have hbelow : ∀ (h : Heap α) (b : α), h.Ordered R → (∀ r ∈ h.roots, R b r) →
      ∀ y ∈ h.elements, R b y := by
    intro h
    induction h with
    | nil => simp
    | node d c s ihc ihs =>
        intro b hord htop y hy
        obtain ⟨hd, hc, hs⟩ := hord
        have hbd : R b d := htop d (by simp)
        simp only [elements_node, List.mem_cons, List.mem_append] at hy
        rcases hy with rfl | hy | hy
        · exact hbd
        · exact ihc b hc (fun r hr => Trans.trans hbd (hd r hr)) y hy
        · exact ihs b hs (fun r hr => htop r (by simp [hr])) y hy
  simp only [elements_node, elements_nil, List.append_nil, List.mem_cons] at hx
  rcases hx with rfl | hx
  · exact refl x
  · exact hbelow c a hordered.2.1 hordered.1 x hx

/-! ### Taking a node out -/

section Replace

variable [DecidableEq α]

/-- The forest with the part that begins at `e` replaced: `f` gets what is below `e` and the siblings
after it. -/
def replace (e : α) (f : Heap α → Heap α → Heap α) : Heap α → Heap α
  | .nil => .nil
  | .node a c s => if a = e then f c s else .node a (c.replace e f) (s.replace e f)

/-- Take `e` out: what was below it is combined into one tree, which takes its place. -/
def remove (before : α → α → Bool) (e : α) : Heap α → Heap α :=
  replace e fun c s => attach (combine before c) s

/-- Take out `e` with everything below it. -/
def prune (e : α) : Heap α → Heap α := replace e fun _ s => s

theorem replace_of_notMem {e : α} {f : Heap α → Heap α → Heap α} {h : Heap α}
    (hnot : e ∉ h.elements) : replace e f h = h := by
  induction h with
  | nil => rfl
  | node a c s ihc ihs =>
      simp only [elements_node, List.mem_cons, List.mem_append, not_or] at hnot
      rw [replace, if_neg (Ne.symm hnot.1), ihc hnot.2.1, ihs hnot.2.2]

theorem elements_remove {e : α} {h : Heap α} (hnodup : h.elements.Nodup) (hmem : e ∈ h.elements) :
    h.elements.Perm (e :: (remove before e h).elements) := by
  induction h with
  | nil => cases hmem
  | node a c s ihc ihs =>
      rw [elements_node, List.nodup_cons, List.nodup_append] at hnodup
      obtain ⟨ha, hc, hs, hdisjoint⟩ := hnodup
      unfold remove replace
      split_ifs with hae
      · rw [elements_attach (noSibling_combine _ _), hae]
        exact ((elements_combine before c).symm.append_right _).cons e
      · simp only [elements_node, List.mem_cons, List.mem_append] at hmem ⊢
        rcases hmem with rfl | hmem | hmem
        · exact absurd rfl hae
        · rw [replace_of_notMem fun hs' => hdisjoint e hmem e hs' rfl]
          exact (((ihc hc hmem).append_right _).cons a).trans (.swap _ _ _)
        · rw [replace_of_notMem fun hc' => hdisjoint e hc' e hmem rfl]
          refine (((ihs hs hmem).append_left _).cons a).trans ?_
          exact (List.perm_middle.cons a).trans (.swap _ _ _)

theorem notMem_remove {e : α} {h : Heap α} (hnodup : h.elements.Nodup) :
    e ∉ (remove before e h).elements := by
  by_cases hmem : e ∈ h.elements
  · exact (List.nodup_cons.mp ((elements_remove hnodup hmem).nodup_iff.mp hnodup)).1
  · rwa [remove, replace_of_notMem hmem]

/-- Taking a node out keeps the order: its children come after its parent. The test is only used on
other elements than the one taken out. -/
theorem ordered_remove [IsTrans α R] {e : α} {h : Heap α} (hnodup : h.elements.Nodup)
    (hdecides : Decides before R (h.elements.filter (· ≠ e))) (hordered : h.Ordered R) :
    (remove before e h).Ordered R ∧
      ∀ a, (∀ b ∈ h.roots, R a b) → ∀ b ∈ (remove before e h).roots, R a b := by
  induction h with
  | nil => exact ⟨trivial, fun a htop b hb => htop b hb⟩
  | node a c s ihc ihs =>
      rw [elements_node, List.nodup_cons, List.nodup_append] at hnodup
      obtain ⟨ha, hc, hs, hdisjoint⟩ := hnodup
      obtain ⟨htop, hordc, hords⟩ := hordered
      simp only [remove] at ihc ihs
      unfold remove replace
      split_ifs with hae
      · subst hae
        have hdecidesChildren : Decides before R c.elements := by
          refine hdecides.mono fun x hx => ?_
          have hne : x ≠ a := fun hxa => ha (List.mem_append.mpr (.inl (hxa ▸ hx)))
          simp [hx, hne]
        refine ⟨ordered_attach (ordered_combine hdecidesChildren hordc) hords, ?_⟩
        intro p hp b hb
        rcases mem_roots_attach hb with hb | hb
        · exact Trans.trans (hp a (by simp)) (htop b (mem_roots_combine hb))
        · exact hp b (by simp [hb])
      · have hdecidesLeft : Decides before R (c.elements.filter (· ≠ e)) := by
          refine hdecides.mono fun x => ?_
          simp only [elements_node, List.mem_filter, List.mem_cons, List.mem_append]
          tauto
        have hdecidesRight : Decides before R (s.elements.filter (· ≠ e)) := by
          refine hdecides.mono fun x => ?_
          simp only [elements_node, List.mem_filter, List.mem_cons, List.mem_append]
          tauto
        obtain ⟨hordc', htopc⟩ := ihc hc hdecidesLeft hordc
        obtain ⟨hords', htops⟩ := ihs hs hdecidesRight hords
        refine ⟨⟨htopc a htop, hordc', hords'⟩, ?_⟩
        intro p hp b hb
        rw [roots_node, List.mem_cons] at hb
        rcases hb with rfl | hb
        · exact hp b (by simp)
        · exact htops p (fun r hr => hp r (by simp [hr])) b hb

theorem noSibling_remove {e : α} {h : Heap α} (hsingle : h.NoSibling) :
    (remove before e h).NoSibling := by
  cases hsingle with
  | nil => exact .nil
  | node a c =>
      unfold remove replace
      split_ifs with hae
      · have hcombined := noSibling_combine before c
        cases hcase : combine before c with
        | nil => exact .nil
        | node m mc ms => exact .node m mc
      · exact .node _ _

end Replace

end Batteries.PairingHeapImp.Heap
