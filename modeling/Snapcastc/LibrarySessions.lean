import Mathlib.Data.List.Nodup
import Mathlib.Data.List.Basic

/-! Sessions that one process serves at the same time. A session has a key while it is open, and a machine
that makes outputs of its inputs. The process keeps a table with the states of the open sessions; what it
does with all of them is one log. -/

namespace Snapcastc

namespace Sessions

variable {κ σ ι ο : Type}

/-- What a session does with its inputs, and at which of them it stays open. -/
structure Machine (σ ι ο : Type) where
  start : σ
  step : σ → ι → σ × List ο
  stays : σ → ι → Prop

/-- The state and the outputs after a sequence of inputs. -/
def Machine.run (machine : Machine σ ι ο) (inputs : List ι) : σ × List ο :=
  inputs.foldl (fun reached input =>
    ((machine.step reached.1 input).1, reached.2 ++ (machine.step reached.1 input).2)) (machine.start, [])

theorem Machine.run_concat (machine : Machine σ ι ο) (inputs : List ι) (input : ι) :
    machine.run (inputs ++ [input]) = ((machine.step (machine.run inputs).1 input).1,
      (machine.run inputs).2 ++ (machine.step (machine.run inputs).1 input).2) :=
  List.foldl_concat _ _ _ _

/-- The session is still open after the inputs. -/
inductive Machine.Open (machine : Machine σ ι ο) : List ι → Prop
  | start : Open machine []
  | next {inputs : List ι} {input : ι} : Open machine inputs →
      machine.stays (machine.run inputs).1 input → Open machine (inputs ++ [input])

/-- What the process does with the session of a key. -/
inductive Entry (κ ι ο : Type) where
  | opened (key : κ)
  | took (key : κ) (input : ι)
  | gave (key : κ) (output : ο)
  | closed (key : κ)

def Entry.key : Entry κ ι ο → κ
  | .opened key => key
  | .took key _ => key
  | .gave key _ => key
  | .closed key => key

/-- What an open session has taken and given so far. -/
structure Session (ι ο : Type) where
  inputs : List ι
  outputs : List ο

/-- The session of a key after an entry for that key. -/
def Entry.next (session : Option (Session ι ο)) : Entry κ ι ο → Option (Session ι ο)
  | .opened _ => some ⟨[], []⟩
  | .took _ input => session.map fun session => { session with inputs := session.inputs ++ [input] }
  | .gave _ output => session.map fun session => { session with outputs := session.outputs ++ [output] }
  | .closed _ => none

theorem foldl_gave (key : κ) (outputs : List ο) (given : Session ι ο) :
    (outputs.map (Entry.gave key)).foldl Entry.next (some given) =
      some ⟨given.inputs, given.outputs ++ outputs⟩ := by
  induction outputs generalizing given with
  | nil =>
      rw [List.append_nil]
      rfl
  | cons output outputs ih =>
      rw [List.map_cons, List.foldl_cons, Entry.next, Option.map_some, ih, List.append_assoc]
      rfl

def stepEntries (key : κ) (input : ι) (outputs : List ο) : List (Entry κ ι ο) :=
  .took key input :: outputs.map (.gave key)

theorem stepEntries_key {key : κ} {input : ι} {outputs : List ο} {entry : Entry κ ι ο}
    (hentry : entry ∈ stepEntries key input outputs) : entry.key = key := by
  rcases List.mem_cons.mp hentry with rfl | hentry
  · rfl
  · obtain ⟨output, -, rfl⟩ := List.mem_map.mp hentry
    rfl

variable [DecidableEq κ]

/-- The open session of a key, as the log tells it. -/
def session (log : List (Entry κ ι ο)) (key : κ) : Option (Session ι ο) :=
  (log.filter fun entry => entry.key = key).foldl Entry.next none

theorem session_append (log entries : List (Entry κ ι ο)) (key : κ) :
    session (log ++ entries) key =
      (entries.filter fun entry => entry.key = key).foldl Entry.next (session log key) := by
  rw [session, List.filter_append, List.foldl_append]
  rfl

/-- Only the entries for the key matter. -/
theorem session_other {entries : List (Entry κ ι ο)} {key : κ} (hother : ∀ entry ∈ entries, entry.key ≠ key)
    (log : List (Entry κ ι ο)) : session (log ++ entries) key = session log key := by
  have hnone : (entries.filter fun entry => entry.key = key) = [] := by
    rw [List.filter_eq_nil_iff]
    intro entry hentry
    simpa using hother entry hentry
  rw [session_append, hnone, List.foldl_nil]

theorem session_own {entries : List (Entry κ ι ο)} {key : κ} (hown : ∀ entry ∈ entries, entry.key = key)
    (log : List (Entry κ ι ο)) :
    session (log ++ entries) key = entries.foldl Entry.next (session log key) := by
  have hall : (entries.filter fun entry => entry.key = key) = entries :=
    List.filter_eq_self.mpr fun entry hentry => decide_eq_true (hown entry hentry)
  rw [session_append, hall]

/-- A key without a session has none as long as none is opened. -/
theorem session_none {entries : List (Entry κ ι ο)} {key : κ}
    (hopened : ∀ entry ∈ entries, entry ≠ .opened key) {log : List (Entry κ ι ο)}
    (hnone : session log key = none) : session (log ++ entries) key = none := by
  have hkeeps : ∀ relevant : List (Entry κ ι ο), (∀ entry ∈ relevant, entry.key = key ∧ entry ≠ .opened key) →
      relevant.foldl Entry.next none = none := by
    intro relevant hrelevant
    induction relevant with
    | nil => rfl
    | cons entry relevant ih =>
        obtain ⟨⟨hkey, hentry⟩, hrest⟩ := List.forall_mem_cons.mp hrelevant
        have hnext : entry.next (none : Option (Session ι ο)) = none := by
          cases entry with
          | opened other =>
              obtain rfl : other = key := hkey
              exact absurd rfl hentry
          | took _ _ => rfl
          | gave _ _ => rfl
          | closed _ => rfl
        rw [List.foldl_cons, hnext]
        exact ih hrest
  rw [session_append, hnone]
  refine hkeeps _ fun entry hentry => ?_
  obtain ⟨hmem, hkey⟩ := List.mem_filter.mp hentry
  exact ⟨of_decide_eq_true hkey, hopened entry hmem⟩

theorem session_step (log : List (Entry κ ι ο)) (key : κ) (input : ι) (outputs : List ο)
    {current : Session ι ο} (hcurrent : session log key = some current) :
    session (log ++ stepEntries key input outputs) key =
      some ⟨current.inputs ++ [input], current.outputs ++ outputs⟩ := by
  rw [session_own fun entry => stepEntries_key, hcurrent, stepEntries, List.foldl_cons]
  exact foldl_gave key outputs _

/-- The table has the open sessions of the log, each in the state in which its own inputs put the machine,
and the outputs are the machine's. -/
structure Follows (machine : Machine σ ι ο) (table : List (κ × σ)) (log : List (Entry κ ι ο)) : Prop where
  nodup : (table.map Prod.fst).Nodup
  state : ∀ entry ∈ table, ∃ current, session log entry.1 = some current ∧
    machine.Open current.inputs ∧ machine.run current.inputs = (entry.2, current.outputs)
  listed : ∀ key, session log key ≠ none → key ∈ table.map Prod.fst

namespace Follows

variable {machine : Machine σ ι ο} {table : List (κ × σ)} {log : List (Entry κ ι ο)}

theorem nil (machine : Machine σ ι ο) : Follows machine [] ([] : List (Entry κ ι ο)) where
  nodup := List.nodup_nil
  state := fun _ hentry => absurd hentry List.not_mem_nil
  listed := fun _ hsession => absurd rfl hsession

/-- Whether a session is open can be read off the table. -/
theorem session_none_iff (hfollows : Follows machine table log) (key : κ) :
    session log key = none ↔ key ∉ table.map Prod.fst := by
  refine ⟨fun hnone hmem => ?_, fun hnot => by_contra fun hsession => hnot (hfollows.listed key hsession)⟩
  obtain ⟨entry, hentry, rfl⟩ := List.mem_map.mp hmem
  obtain ⟨current, hcurrent, -⟩ := hfollows.state entry hentry
  rw [hnone] at hcurrent
  cases hcurrent

/-- Sessions at two places have different keys. -/
theorem key_ne (hfollows : Follows machine table log) {i j : Nat} {entry other : κ × σ}
    (hentry : table[i]? = some entry) (hother : table[j]? = some other) (hne : j ≠ i) :
    other.1 ≠ entry.1 := by
  intro hkey
  have hi : (table.map Prod.fst)[i]? = some entry.1 := by
    rw [List.getElem?_map, hentry]
    rfl
  have hj : (table.map Prod.fst)[j]? = some entry.1 := by
    rw [List.getElem?_map, hother, ← hkey]
    rfl
  have hlt : j < (table.map Prod.fst).length := (List.getElem?_eq_some_iff.mp hj).1
  exact hne ((List.getElem?_inj hlt hfollows.nodup).mp (hj.trans hi.symm))

/-- A session is opened with a key that is not in use. -/
theorem opened (hfollows : Follows machine table log) {key : κ} (hnew : key ∉ table.map Prod.fst) :
    Follows machine (table ++ [(key, machine.start)]) (log ++ [.opened key]) := by
  have hhere : session (log ++ [Entry.opened key]) key = some ⟨[], []⟩ := by
    rw [session_append, List.filter_singleton, Entry.key, decide_eq_true rfl]
    rfl
  have hother : ∀ other, other ≠ key → session (log ++ [Entry.opened key]) other = session log other := by
    intro other hne
    refine session_other (fun entry hentry => ?_) log
    rw [List.mem_singleton.mp hentry]
    exact hne.symm
  refine ⟨?_, fun entry hentry => ?_, fun other hsession => ?_⟩
  · rw [List.map_append, List.map_singleton]
    exact hfollows.nodup.append (List.nodup_singleton _) (List.disjoint_singleton.mpr hnew)
  · rcases List.mem_append.mp hentry with hentry | hentry
    · have hne : entry.1 ≠ key := fun hkey => hnew (hkey ▸ List.mem_map_of_mem hentry)
      rw [hother _ hne]
      exact hfollows.state entry hentry
    · rw [List.mem_singleton.mp hentry]
      exact ⟨_, hhere, .start, rfl⟩
  · rw [List.map_append, List.mem_append]
    by_cases hne : other = key
    · exact .inr (List.mem_singleton.mpr hne)
    · rw [hother other hne] at hsession
      exact .inl (hfollows.listed other hsession)

/-- A session takes an input at which it stays open. -/
theorem took (hfollows : Follows machine table log) {i : Nat} {key : κ} {state : σ}
    (hget : table[i]? = some (key, state)) {input : ι} (hstays : machine.stays state input) :
    Follows machine (table.set i (key, (machine.step state input).1))
      (log ++ stepEntries key input (machine.step state input).2) := by
  obtain ⟨current, hcurrent, hopen, hrun⟩ := hfollows.state _ (List.mem_of_getElem? hget)
  have hstate : (machine.run current.inputs).1 = state := congrArg Prod.fst hrun
  have houtputs : (machine.run current.inputs).2 = current.outputs := congrArg Prod.snd hrun
  have hhere := session_step log key input (machine.step state input).2 hcurrent
  have hother : ∀ other, other ≠ key →
      session (log ++ stepEntries key input (machine.step state input).2) other = session log other :=
    fun other hne => session_other (fun entry hentry => stepEntries_key hentry ▸ hne.symm) log
  have hkeys : (table.set i (key, (machine.step state input).1)).map Prod.fst = table.map Prod.fst := by
    rw [List.map_set]
    refine List.ext_getElem? fun j => ?_
    rw [List.getElem?_set]
    split_ifs with hij hlt
    · rw [← hij, List.getElem?_map, hget]
      rfl
    · rw [← hij, List.getElem?_eq_none (Nat.not_lt.mp hlt)]
    · rfl
  refine ⟨hkeys ▸ hfollows.nodup, fun entry hentry => ?_, fun other hsession => ?_⟩
  · obtain ⟨j, hj⟩ := List.mem_iff_getElem?.mp hentry
    rw [List.getElem?_set] at hj
    split_ifs at hj with hij hlt
    · rw [← Option.some.inj hj]
      refine ⟨_, hhere, hopen.next (hstate ▸ hstays), ?_⟩
      rw [Machine.run_concat, hstate, houtputs]
    · rw [hother _ (hfollows.key_ne hget hj (Ne.symm hij))]
      exact hfollows.state entry (List.mem_of_getElem? hj)
  · rw [hkeys]
    by_cases hne : other = key
    · rw [hne]
      exact List.mem_map.mpr ⟨_, List.mem_of_getElem? hget, rfl⟩
    · rw [hother other hne] at hsession
      exact hfollows.listed other hsession

/-- A session is closed, whatever it has done just before. -/
theorem closed (hfollows : Follows machine table log) {i : Nat} {key : κ} {state : σ}
    (hget : table[i]? = some (key, state)) {entries : List (Entry κ ι ο)}
    (hown : ∀ entry ∈ entries, entry.key = key) :
    Follows machine (table.eraseIdx i) (log ++ entries ++ [.closed key]) := by
  have hhere : session (log ++ entries ++ [Entry.closed key]) key = none := by
    rw [session_append, List.filter_singleton, Entry.key, decide_eq_true rfl]
    rfl
  have hother : ∀ other, other ≠ key →
      session (log ++ entries ++ [Entry.closed key]) other = session log other := by
    intro other hne
    rw [List.append_assoc]
    refine session_other (fun entry hentry => ?_) log
    rcases List.mem_append.mp hentry with hentry | hentry
    · rw [hown entry hentry]
      exact hne.symm
    · rw [List.mem_singleton.mp hentry]
      exact hne.symm
  refine ⟨hfollows.nodup.sublist ((List.eraseIdx_sublist _ _).map _), fun entry hentry => ?_,
    fun other hsession => ?_⟩
  · obtain ⟨j, hne, hj⟩ := List.mem_eraseIdx_iff_getElem?.mp hentry
    rw [hother _ (hfollows.key_ne hget hj hne)]
    exact hfollows.state entry (List.mem_of_getElem? hj)
  · have hne : other ≠ key := by
      rintro rfl
      exact hsession hhere
    rw [hother other hne] at hsession
    obtain ⟨entry, hentry, rfl⟩ := List.mem_map.mp (hfollows.listed other hsession)
    obtain ⟨j, hj⟩ := List.mem_iff_getElem?.mp hentry
    refine List.mem_map_of_mem (List.mem_eraseIdx_iff_getElem?.mpr ⟨j, ?_, hj⟩)
    rintro rfl
    exact hne (congrArg Prod.fst (Option.some.inj (hj.symm.trans hget)))

/-- What is done with keys that are not in the table leaves the sessions alone. -/
theorem apart (hfollows : Follows machine table log) {entries : List (Entry κ ι ο)}
    (hkeys : ∀ entry ∈ entries, entry.key ∉ table.map Prod.fst)
    (hopened : ∀ entry ∈ entries, ∀ key, entry ≠ .opened key) : Follows machine table (log ++ entries) := by
  refine ⟨hfollows.nodup, fun entry hentry => ?_, fun key hsession => ?_⟩
  · rw [session_other fun other hother hkey => hkeys other hother (hkey ▸ List.mem_map_of_mem hentry)]
    exact hfollows.state entry hentry
  · by_contra hnot
    exact hsession (session_none (fun entry hentry => hopened entry hentry key)
      ((hfollows.session_none_iff key).mpr hnot))

end Follows

end Sessions

end Snapcastc
