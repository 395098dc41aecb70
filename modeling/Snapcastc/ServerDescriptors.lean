import Snapcastc.LibraryCalls
import Snapcastc.ServerRegistry

/-! Which input pipes `epoll` watches, over whole runs. A pipe is read from, or waits for a task to resume
reading, or rests because nobody listens; the program keeps this in the state of the pipe only in
part. -/

namespace Snapcastc

open Calls

variable {n : Nat}

/-- `epoll_ctl` has not refused a descriptor. -/
def Fault.NotRefused : Fault → Prop
  | .addFd _ => False
  | .delFd _ => False
  | _ => True

def isResume (i : Fin (n + 1)) (code : ServerTask n) : Bool := code = .inputpipeResumeRead i

/-- The queued tasks that resume reading for a stream. -/
def resumesOf (tasks : TaskPool (ServerTask n)) (i : Fin (n + 1)) : List Nat :=
  (tasks.ofKind (isResume i)).map Posted.id

theorem resumesOf_frame {tasks tasks' : TaskPool (ServerTask n)} {i : Fin (n + 1)}
    (hframe : tasks.Frame (isResume i) tasks') : resumesOf tasks' i = resumesOf tasks i := by
  rw [resumesOf, resumesOf, hframe.kept]

/-! ### The state of a pipe, and when it is read from -/

/-- How the pipe of a stream is served. A pipe that nobody listens to may be left with a task to resume
reading. -/
inductive Status (s : Server n) (i : Fin (n + 1)) : Prop
  | reading (hstate : (s.pipe i).state ≠ .throttle) (hinit : (s.pipe i).initialized = true)
      (hwatched : (s.pipe i).fd ∈ s.interest) (hclients : s.clients i ≠ [])
      (htask : (s.pipe i).resumeTask = none) (hresumes : resumesOf s.tasks i = [])
  | waiting (hstate : (s.pipe i).state ≠ .playing) (hinit : (s.pipe i).initialized = true)
      (hwatched : (s.pipe i).fd ∉ s.interest) (hclients : s.clients i ≠ []) (id : Nat)
      (htask : (s.pipe i).resumeTask = some id) (hresumes : resumesOf s.tasks i = [id])
  | resting (hstate : (s.pipe i).state = .idle)
      (hwatched : (s.pipe i).initialized = true → (s.pipe i).fd ∉ s.interest)
      (hclients : s.clients i = [])
      (hresumes : ∀ id ∈ resumesOf s.tasks i, (s.pipe i).resumeTask = some id)

theorem Status.congr {s s' : Server n} {i : Fin (n + 1)} (hstatus : Status s i)
    (hstate : (s'.pipe i).state = (s.pipe i).state)
    (hinit : (s'.pipe i).initialized = (s.pipe i).initialized)
    (htask : (s'.pipe i).resumeTask = (s.pipe i).resumeTask)
    (hclients : s'.clients i = [] ↔ s.clients i = [])
    (hwatched : (s.pipe i).initialized = true →
      ((s'.pipe i).fd ∈ s'.interest ↔ (s.pipe i).fd ∈ s.interest))
    (hresumes : resumesOf s'.tasks i = resumesOf s.tasks i) : Status s' i := by
  cases hstatus with
  | reading hs hi hw hc ht hr =>
      exact .reading (hstate ▸ hs) (hinit.trans hi) ((hwatched hi).mpr hw) (hc ∘ hclients.mp)
        (htask.trans ht) (hresumes.trans hr)
  | waiting hs hi hw hc id ht hr =>
      exact .waiting (hstate ▸ hs) (hinit.trans hi) (hw ∘ (hwatched hi).mp) (hc ∘ hclients.mp) id
        (htask.trans ht) (hresumes.trans hr)
  | resting hs hw hc hr =>
      refine .resting (hstate.trans hs) (fun hi => ?_) (hclients.mpr hc) fun id hid => ?_
      · rw [hinit] at hi
        exact hw hi ∘ (hwatched hi).mp
      · rw [hresumes] at hid
        exact htask.trans (hr id hid)

/-- Every pipe is served in one of the three ways, no other pipe is taken for an open one, and an event
is to be handled only for a pipe that is watched or that nobody listens to. -/
structure PipesInv (s : Server n) : Prop where
  status : ∀ i, Status s i
  distinct : ∀ i j, i ≠ j → (s.pipe i).initialized = true →
    (s.pipe j).initialized = true ∨ i < j → (s.pipe i).fd ≠ (s.pipe j).fd
  watched : ∀ fd ∈ s.interest, ∃ i, (s.pipe i).initialized = true ∧ (s.pipe i).fd = fd
  nodup : s.pending.Nodup
  pending : ∀ fd ∈ s.pending, ∃ i, (s.pipe i).initialized = true ∧ (s.pipe i).fd = fd ∧
    (fd ∈ s.interest ∨ s.clients i = [])

theorem PipesInv.served {s : Server n} (hinv : PipesInv s) {i : Fin (n + 1)}
    (hinit : (s.pipe i).initialized = true) (hmem : (s.pipe i).fd ∈ s.pending) :
    (s.pipe i).fd ∈ s.interest ∨ s.clients i = [] := by
  obtain ⟨j, hopen, hfd, hserved⟩ := hinv.pending _ hmem
  rcases eq_or_ne j i with rfl | hne
  · exact hserved
  · exact absurd hfd (hinv.distinct j i hne hopen (.inl hinit))

/-- What is to be shown when the pipe of one stream, its tasks and its descriptor change. -/
structure PipeChange (s s' : Server n) (i : Fin (n + 1)) : Prop where
  pipe : ∀ j, j ≠ i → s'.pipe j = s.pipe j
  clients : ∀ j, j ≠ i → (s'.clients j = [] ↔ s.clients j = [])
  resumes : ∀ j, j ≠ i → resumesOf s'.tasks j = resumesOf s.tasks j
  interest : ∀ fd, ((s.pipe i).initialized = true → fd ≠ (s.pipe i).fd) →
    ((s'.pipe i).initialized = true → fd ≠ (s'.pipe i).fd) → (fd ∈ s'.interest ↔ fd ∈ s.interest)
  fd : ((s'.pipe i).fd = (s.pipe i).fd ∧
      ((s'.pipe i).initialized = true → (s.pipe i).initialized = true)) ∨
    ∀ j, j ≠ i → (s.pipe j).initialized = true ∨ i < j → (s.pipe j).fd ≠ (s'.pipe i).fd
  watched : (s.pipe i).initialized = true → (s.pipe i).fd ∈ s'.interest →
    (s'.pipe i).initialized = true ∧ (s'.pipe i).fd = (s.pipe i).fd
  pending : s'.pending.Sublist s.pending
  kept : (s.pipe i).fd ∈ s'.pending → (s.pipe i).initialized = true →
    (s'.pipe i).initialized = true ∧ (s'.pipe i).fd = (s.pipe i).fd ∧
      ((s'.pipe i).fd ∈ s'.interest ∨ s'.clients i = [])
  status : Status s' i

/-- The descriptors of the other open pipes are not touched. -/
theorem PipeChange.other {s s' : Server n} {i j : Fin (n + 1)} (hchange : PipeChange s s' i)
    (hinv : PipesInv s) (hne : j ≠ i) (hinit : (s.pipe j).initialized = true) :
    ((s.pipe j).fd ∈ s'.interest ↔ (s.pipe j).fd ∈ s.interest) := by
  refine hchange.interest _ (fun hopen => hinv.distinct j i hne hinit (.inl hopen)) fun hopen => ?_
  rcases hchange.fd with ⟨hsame, hwas⟩ | hnew
  · rw [hsame]
    exact hinv.distinct j i hne hinit (.inl (hwas hopen))
  · exact hnew j hne (.inl hinit)

theorem PipesInv.change {s s' : Server n} {i : Fin (n + 1)} (hinv : PipesInv s)
    (hchange : PipeChange s s' i) : PipesInv s' := by
  refine ⟨fun j => ?_, fun j k hne hinit hclose => ?_, fun fd hfd => ?_,
    hinv.nodup.sublist hchange.pending, fun fd hfd => ?_⟩
  · rcases eq_or_ne j i with rfl | hne
    · exact hchange.status
    · have hpipe := hchange.pipe j hne
      refine (hinv.status j).congr ?_ ?_ ?_ (hchange.clients j hne) (fun hinit => ?_)
        (hchange.resumes j hne)
      · rw [hpipe]
      · rw [hpipe]
      · rw [hpipe]
      · rw [hpipe]
        exact hchange.other hinv hne hinit
  · rcases eq_or_ne j i with rfl | hji
    · rw [hchange.pipe k hne.symm] at hclose ⊢
      rcases hchange.fd with ⟨hsame, hopen⟩ | hnew
      · rw [hsame]
        exact hinv.distinct j k hne (hopen hinit) hclose
      · exact (hnew k hne.symm hclose).symm
    · rw [hchange.pipe j hji] at hinit ⊢
      rcases eq_or_ne k i with rfl | hki
      · rcases hchange.fd with ⟨hsame, hopen⟩ | hnew
        · rw [hsame]
          exact hinv.distinct j k hne hinit (hclose.imp_left hopen)
        · exact hnew j hne (.inl hinit)
      · rw [hchange.pipe k hki] at hclose ⊢
        exact hinv.distinct j k hne hinit hclose
  · by_cases hnow : (s'.pipe i).initialized = true ∧ (s'.pipe i).fd = fd
    · exact ⟨i, hnow⟩
    · have hnot : (s.pipe i).initialized = true → fd ≠ (s.pipe i).fd := by
        rintro hopen rfl
        exact hnow (hchange.watched hopen hfd)
      have hold := (hchange.interest fd hnot fun hopen heq => hnow ⟨hopen, heq.symm⟩).mp hfd
      obtain ⟨j, hinit, rfl⟩ := hinv.watched fd hold
      have hne : j ≠ i := by
        rintro rfl
        exact hnot hinit rfl
      refine ⟨j, ?_⟩
      rw [hchange.pipe j hne]
      exact ⟨hinit, rfl⟩
  · obtain ⟨j, hinit, rfl, hserved⟩ := hinv.pending fd (hchange.pending.subset hfd)
    rcases eq_or_ne j i with rfl | hne
    · obtain ⟨hinit', hsame, hserved'⟩ := hchange.kept hfd hinit
      rw [hsame] at hserved'
      exact ⟨j, hinit', hsame, hserved'⟩
    · refine ⟨j, ?_⟩
      rw [hchange.pipe j hne]
      exact ⟨hinit, rfl, hserved.imp (hchange.other hinv hne hinit).mpr (hchange.clients j hne).mpr⟩

theorem dropTask_meets (tasks : TaskPool (ServerTask n)) (id : Nat) :
    Meets Fault.NotRefused (fun tasks' => tasks.dropTask id = .ok tasks') (tasks.dropTask id) := by
  refine .result fun fault hfault => ?_
  unfold TaskPool.dropTask at hfault
  split_ifs at hfault
  cases hfault
  trivial

theorem dropHandle_meets (tasks : TaskPool (ServerTask n)) (handle : Option Nat) :
    Meets Fault.NotRefused (fun tasks' => tasks.dropHandle handle = .ok tasks')
      (tasks.dropHandle handle) := by
  cases handle with
  | none => exact .pure rfl
  | some id => exact dropTask_meets tasks id

theorem resumesOf_dropTask {tasks tasks' : TaskPool (ServerTask n)} (hsound : tasks.Sound) {id : Nat}
    (hdrop : tasks.dropTask id = .ok tasks') (i : Fin (n + 1)) :
    resumesOf tasks' i = (resumesOf tasks i).filter (· != id) := by
  rw [TaskPool.dropTask_eq hsound hdrop, resumesOf, resumesOf, TaskPool.ofKind, TaskPool.ofKind,
    List.filter_map, List.filter_filter, List.filter_filter]
  refine congrArg (List.map Posted.id) (List.filter_congr fun task _ => ?_)
  exact Bool.and_comm _ _

theorem resumesOf_dropResume {tasks tasks' : TaskPool (ServerTask n)} (hsound : tasks.Sound)
    {id : Nat} {i j : Fin (n + 1)} (hmade : tasks.Made id (.inputpipeResumeRead i))
    (hdrop : tasks.dropTask id = .ok tasks') (hne : j ≠ i) :
    resumesOf tasks' j = resumesOf tasks j := by
  refine resumesOf_frame (.dropTask hsound hmade ?_ hdrop)
  simp [isResume, hne.symm]

theorem resumesOf_postResume (tasks : TaskPool (ServerTask n)) (now : Timespec)
    (timeout millisecs : Int) (i : Fin (n + 1)) :
    resumesOf (tasks.postTask now timeout millisecs (.inputpipeResumeRead i)).2 i =
      resumesOf tasks i ++ [tasks.fresh] := by
  change ((tasks.queued ++ [_]).filter _).map Posted.id = (tasks.queued.filter _).map Posted.id ++ _
  rw [List.filter_append, List.map_append, List.filter_singleton]
  simp [isResume]

/-- What `inputpipe_hold` leaves behind. -/
structure Held (s s' : Server n) (i : Fin (n + 1)) : Prop where
  frame : PipeFrame s s'
  pipe : ∀ j, j ≠ i → s'.pipe j = s.pipe j
  state : (s'.pipe i).state = .idle
  fd : (s'.pipe i).fd = (s.pipe i).fd
  initialized : (s'.pipe i).initialized = (s.pipe i).initialized
  interest : s'.interest =
    if (s.pipe i).state = .playing then s.interest.erase (s.pipe i).fd else s.interest
  resumeTask : (s'.pipe i).resumeTask =
    if (s.pipe i).state = .throttle then none else (s.pipe i).resumeTask
  resumes : ∀ j, j ≠ i → resumesOf s'.tasks j = resumesOf s.tasks j
  resumesHere : resumesOf s'.tasks i = if (s.pipe i).state = .throttle then
    (resumesOf s.tasks i).filter (fun id => (s.pipe i).resumeTask != some id)
    else resumesOf s.tasks i

/-- What `set_idle` on the pipe of a stream leaves behind. -/
theorem setStreamIdle_fields {s s' : Server n} {i : Fin (n + 1)} (hhandles : HandleInv s)
    (hrun : setStreamIdle s i = .ok s') :
    (∀ j, j ≠ i → s'.pipe j = s.pipe j) ∧ (s'.pipe i).state = .idle ∧
      (s'.pipe i).fd = (s.pipe i).fd ∧ (s'.pipe i).initialized = (s.pipe i).initialized ∧
      (s'.pipe i).resumeTask = (s.pipe i).resumeTask ∧ s'.interest = s.interest ∧
      ∀ j, resumesOf s'.tasks j = resumesOf s.tasks j := by
  obtain ⟨⟨ctx, tasks⟩, hidle, hrun⟩ := except_bind_ok hrun
  cases hrun
  obtain ⟨tasks', hdrop, hidle⟩ := except_bind_ok hidle
  cases hidle
  rw [Server.setPipe_pipe]
  refine ⟨fun j hne => Function.update_of_ne hne _ _, ?_, ?_, ?_, ?_, rfl, fun j => ?_⟩
  · rw [Function.update_self]
  · rw [Function.update_self]
  · rw [Function.update_self]
  · rw [Function.update_self]
  · exact resumesOf_frame (.dropHandle hhandles.sound (hhandles.idle i) rfl hdrop)

theorem setStreamIdle_meets (s : Server n) (i : Fin (n + 1)) :
    Meets Fault.NotRefused (fun s' => setStreamIdle s i = .ok s') (setStreamIdle s i) := by
  refine .result fun fault hfault => ?_
  have hidle : Meets Fault.NotRefused (fun _ => True) (setIdle (s.pipe i) s.tasks) :=
    .bind (dropHandle_meets s.tasks (s.pipe i).idleTask) fun _ _ => trivial
  have hmeets : Meets Fault.NotRefused (fun _ => True) (setStreamIdle s i) :=
    .bind hidle fun _ _ => trivial
  exact hmeets.of_error hfault

theorem stopReading_meets {s : Server n} {i : Fin (n + 1)} (hhandles : HandleInv s)
    (hwatched : (s.pipe i).state = .playing → (s.pipe i).fd ∈ s.interest) :
    Meets Fault.NotRefused (fun s' => stopReading s i = .ok s' ∧
      (∀ j, j ≠ i → s'.pipe j = s.pipe j) ∧
      (s'.pipe i).fd = (s.pipe i).fd ∧ (s'.pipe i).initialized = (s.pipe i).initialized ∧
      (s'.interest = if (s.pipe i).state = .playing then s.interest.erase (s.pipe i).fd
        else s.interest) ∧
      ((s'.pipe i).resumeTask = if (s.pipe i).state = .throttle then none
        else (s.pipe i).resumeTask) ∧
      (∀ j, j ≠ i → resumesOf s'.tasks j = resumesOf s.tasks j) ∧
      resumesOf s'.tasks i = if (s.pipe i).state = .throttle then
        (resumesOf s.tasks i).filter (fun id => (s.pipe i).resumeTask != some id)
        else resumesOf s.tasks i) (stopReading s i) := by
  unfold stopReading
  cases hstate : (s.pipe i).state with
  | idle => exact ⟨rfl, fun _ _ => rfl, rfl, rfl, rfl, rfl, fun _ _ => rfl, rfl⟩
  | playing =>
      dsimp only
      rw [Server.delFd, if_pos (hwatched hstate)]
      exact ⟨rfl, fun _ _ => rfl, rfl, rfl, rfl, rfl, fun _ _ => rfl, rfl⟩
  | throttle =>
      dsimp only
      cases htask : (s.pipe i).resumeTask with
      | none => exact trivial
      | some id =>
          refine .bind (dropTask_meets s.tasks id) fun tasks hdrop => ?_
          have hmade := hhandles.resume i id htask
          refine .pure ⟨?_, fun j hne => ?_, ?_, ?_, ?_, ?_, fun j hne => ?_, ?_⟩
          · dsimp only
            rw [hdrop]
            rfl
          · rw [Server.setPipe_pipe]
            exact Function.update_of_ne hne _ _
          · rw [Server.setPipe_pipe, Function.update_self]
          · rw [Server.setPipe_pipe, Function.update_self]
          · rfl
          · rw [Server.setPipe_pipe, Function.update_self]
            rfl
          · exact resumesOf_dropResume hhandles.sound hmade hdrop hne
          · refine (resumesOf_dropTask hhandles.sound hdrop i).trans ?_
            rw [if_pos rfl]
            refine List.filter_congr fun other _ => ?_
            simp [bne, eq_comm]

theorem inputpipeHold_meets {s : Server n} {i : Fin (n + 1)} (hhandles : HandleInv s)
    (hwatched : (s.pipe i).state = .playing → (s.pipe i).fd ∈ s.interest) :
    Meets Fault.NotRefused (fun s' => Held s s' i) (inputpipeHold s i) := by
  refine .bind (stopReading_meets hhandles hwatched) fun s₁ hstopped => ?_
  obtain ⟨hstop, hpipe, hfd, hinit, hinterest, htask, hresumes, hresumesHere⟩ := hstopped
  have hframe := PipeFrame.stopReading hhandles hstop
  refine (setStreamIdle_meets s₁ i).mono fun s' hidle => ?_
  obtain ⟨hpipe', hstate', hfd', hinit', htask', hinterest', hresumes'⟩ :=
    setStreamIdle_fields hframe.handles hidle
  refine ⟨hframe.trans (.setStreamIdle hframe.handles hidle), fun j hne => ?_, hstate',
    hfd'.trans hfd, hinit'.trans hinit, hinterest'.trans hinterest, htask'.trans htask,
    fun j hne => ?_, (hresumes' i).trans hresumesHere⟩
  · rw [hpipe' j hne, hpipe j hne]
  · rw [hresumes' j, hresumes j hne]

/-- What `inputpipe_resume_read` finds about the pipe once it is open. -/
theorem openPipe_spec {opened : Option Nat} {ctx ctx' : InputpipeCtx}
    (hrun : openPipe opened ctx = .ok ctx') :
    ctx'.initialized = true ∧
      (ctx.initialized = true ∧ ctx'.fd = ctx.fd ∨ ctx.initialized = false ∧ opened = some ctx'.fd) := by
  unfold openPipe inputpipeInit at hrun
  split_ifs at hrun with hinit
  · cases hrun
    exact ⟨hinit, .inl ⟨hinit, rfl⟩⟩
  · cases opened with
    | none => cases hrun
    | some fd =>
        cases hrun
        exact ⟨rfl, .inr ⟨Bool.not_eq_true _ ▸ hinit, rfl⟩⟩

theorem openPipe_meets (opened : Option Nat) (ctx : InputpipeCtx) :
    Meets Fault.NotRefused (fun ctx' => openPipe opened ctx = .ok ctx') (openPipe opened ctx) := by
  refine .result fun fault hfault => ?_
  unfold openPipe inputpipeInit at hfault
  split_ifs at hfault
  · cases hfault
  · cases opened with
    | none =>
        cases hfault
        trivial
    | some fd => cases hfault

theorem inputpipeResumeRead_nobody {opened : Option Nat} {s : Server n} {i : Fin (n + 1)}
    (hclients : s.clients i = []) : inputpipeResumeRead opened s i = .ok s := by
  have hnobody : ¬((s.clients i).length ≠ 0 ∧ (s.pipe i).state ≠ .playing) := by
    rw [hclients]
    simp
  unfold inputpipeResumeRead
  rw [if_neg hnobody]
  rfl

/-- What `open` gives is no number that is in use, or that a later stream has kept of its pipe. -/
def FreshFd (s : Server n) (i : Fin (n + 1)) (opened : Option Nat) : Prop :=
  ∀ fd ∈ opened, ∀ j, j ≠ i → (s.pipe j).initialized = true ∨ i < j → (s.pipe j).fd ≠ fd

/-- A server that is about to resume reading for a stream, compared with one in order. -/
structure BeforeResume (s₀ s : Server n) (i : Fin (n + 1)) : Prop where
  pipe : ∀ j, j ≠ i → s.pipe j = s₀.pipe j
  clients : ∀ j, j ≠ i → (s.clients j = [] ↔ s₀.clients j = [])
  resumes : ∀ j, j ≠ i → resumesOf s.tasks j = resumesOf s₀.tasks j
  interest : ∀ fd, ((s₀.pipe i).initialized = true → fd ≠ (s₀.pipe i).fd) →
    (fd ∈ s.interest ↔ fd ∈ s₀.interest)
  fd : (s.pipe i).fd = (s₀.pipe i).fd
  initialized : (s.pipe i).initialized = true → (s₀.pipe i).initialized = true
  unwatched : (s₀.pipe i).initialized = true → (s₀.pipe i).fd ∉ s.interest
  resumesHere : resumesOf s.tasks i = []
  listening : s.clients i ≠ []
  state : (s.pipe i).state ≠ .playing
  pending : s.pending.Sublist s₀.pending
  kept : (s₀.pipe i).fd ∈ s.pending → (s₀.pipe i).initialized = true →
    (s.pipe i).initialized = true

/-- `epoll` does not watch the descriptor that is about to be added. -/
theorem BeforeResume.free {s₀ s : Server n} {i : Fin (n + 1)} {opened : Option Nat}
    {ctx : InputpipeCtx} (hbefore : BeforeResume s₀ s i) (hinv : PipesInv s₀)
    (hopened : (s.pipe i).initialized = false → FreshFd s₀ i opened)
    (hopen : openPipe opened (s.pipe i) = .ok ctx) : ctx.fd ∉ s.interest := by
  rcases (openPipe_spec hopen).2 with ⟨hwas, hfd⟩ | ⟨hclosed, hnew⟩
  · rw [hfd, hbefore.fd]
    exact hbefore.unwatched (hbefore.initialized hwas)
  · by_cases hsame : (s₀.pipe i).initialized = true ∧ ctx.fd = (s₀.pipe i).fd
    · rw [hsame.2]
      exact hbefore.unwatched hsame.1
    · intro hmem
      have hold := (hbefore.interest _ fun hinit heq => hsame ⟨hinit, heq⟩).mp hmem
      obtain ⟨j, hj, hfd⟩ := hinv.watched _ hold
      refine hopened hclosed ctx.fd hnew j ?_ (.inl hj) hfd
      rintro rfl
      exact hsame ⟨hj, hfd.symm⟩

/-- Reading is resumed: `epoll` does not refuse the descriptor, and the pipe is read from. -/
theorem BeforeResume.meets {s₀ s : Server n} {i : Fin (n + 1)} {opened : Option Nat}
    (hbefore : BeforeResume s₀ s i) (hinv : PipesInv s₀)
    (hopened : (s.pipe i).initialized = false → FreshFd s₀ i opened) :
    Meets Fault.NotRefused PipesInv (inputpipeResumeRead opened s i) := by
  have hlength : (s.clients i).length ≠ 0 := fun hzero =>
    hbefore.listening (List.length_eq_zero_iff.mp hzero)
  unfold inputpipeResumeRead
  rw [if_pos ⟨hlength, hbefore.state⟩]
  refine .bind (openPipe_meets opened (s.pipe i)) fun ctx hopen => ?_
  have hfree := hbefore.free hinv hopened hopen
  obtain ⟨hinit, hcases⟩ := openPipe_spec hopen
  rw [Server.addFd, if_neg hfree]
  refine .pure (hinv.change (i := i) ⟨fun j hne => ?_, fun j hne => ?_, hbefore.resumes,
    fun fd hold hnew => ?_, ?_, fun hopen hfd => ?_, hbefore.pending, fun hpending hold => ?_, ?_⟩)
  · rw [Server.setPipe_pipe, Function.update_of_ne hne]
    exact hbefore.pipe j hne
  · rw [Server.setPipe_clients]
    exact hbefore.clients j hne
  · rw [Server.setPipe_pipe, Function.update_self] at hnew
    change fd ∈ insert ctx.fd s.interest ↔ _
    rw [Finset.mem_insert, or_iff_right (hnew hinit)]
    exact hbefore.interest fd hold
  · rw [Server.setPipe_pipe, Function.update_self]
    rcases hcases with ⟨hwas, hfd⟩ | ⟨hclosed, hnew⟩
    · exact .inl ⟨hfd.trans hbefore.fd, fun _ => hbefore.initialized hwas⟩
    · exact .inr (hopened hclosed ctx.fd hnew)
  · rw [Server.setPipe_pipe, Function.update_self]
    refine ⟨hinit, ?_⟩
    rcases Finset.mem_insert.mp hfd with heq | hmem
    · exact heq.symm
    · exact absurd hmem (hbefore.unwatched hopen)
  · rw [Server.setPipe_pipe, Function.update_self]
    have hwas := hbefore.kept hpending hold
    rcases hcases with ⟨-, hfd⟩ | ⟨hwas', -⟩
    · exact ⟨hinit, hfd.trans hbefore.fd, .inl (Finset.mem_insert_self _ _)⟩
    · exact absurd (hwas.symm.trans hwas') (by decide)
  · refine .reading ?_ ?_ ?_ ?_ ?_ hbefore.resumesHere
    · rw [Server.setPipe_pipe, Function.update_self]
      simp
    · rw [Server.setPipe_pipe, Function.update_self]
      exact hinit
    · rw [Server.setPipe_pipe, Function.update_self]
      exact Finset.mem_insert_self _ _
    · rw [Server.setPipe_clients]
      exact hbefore.listening
    · rw [Server.setPipe_pipe, Function.update_self]

/-- What the server goes by when it starts and stops to read from a pipe. -/
def InputpipeCtx.serving (ctx : InputpipeCtx) : InputpipeState × Bool × Option Nat × Nat :=
  (ctx.state, ctx.initialized, ctx.resumeTask, ctx.fd)

theorem PipesInv.same {s s' : Server n} (hinv : PipesInv s)
    (hpipe : ∀ i, (s'.pipe i).serving = (s.pipe i).serving)
    (hclients : ∀ i, s'.clients i = [] ↔ s.clients i = [])
    (hresumes : ∀ i, resumesOf s'.tasks i = resumesOf s.tasks i)
    (hinterest : s'.interest = s.interest) (hpending : s'.pending.Sublist s.pending) :
    PipesInv s' := by
  have hstate : ∀ i, (s'.pipe i).state = (s.pipe i).state := fun i => congrArg Prod.fst (hpipe i)
  have hinit : ∀ i, (s'.pipe i).initialized = (s.pipe i).initialized := fun i =>
    congrArg (fun view => view.2.1) (hpipe i)
  have htask : ∀ i, (s'.pipe i).resumeTask = (s.pipe i).resumeTask := fun i =>
    congrArg (fun view => view.2.2.1) (hpipe i)
  have hfd : ∀ i, (s'.pipe i).fd = (s.pipe i).fd := fun i =>
    congrArg (fun view => view.2.2.2) (hpipe i)
  refine ⟨fun i => ?_, fun i j hne hopen hclose => ?_, fun fd hmem => ?_,
    hinv.nodup.sublist hpending, fun fd hmem => ?_⟩
  · refine (hinv.status i).congr (hstate i) (hinit i) (htask i) (hclients i) (fun _ => ?_) (hresumes i)
    rw [hfd i, hinterest]
  · rw [hinit i] at hopen
    rw [hinit j] at hclose
    rw [hfd i, hfd j]
    exact hinv.distinct i j hne hopen hclose
  · rw [hinterest] at hmem
    obtain ⟨i, hopen, heq⟩ := hinv.watched fd hmem
    exact ⟨i, (hinit i).trans hopen, (hfd i).trans heq⟩
  · obtain ⟨i, hopen, heq, hserved⟩ := hinv.pending fd (hpending.subset hmem)
    refine ⟨i, (hinit i).trans hopen, (hfd i).trans heq, ?_⟩
    rw [hinterest]
    exact hserved.imp_right (hclients i).mpr

theorem PipesInv.recordFrame {s s' : Server n} (hinv : PipesInv s) (hframe : RecordFrame s s') :
    PipesInv s' := by
  refine hinv.same (fun i => ?_) (fun i => ?_) (fun i => ?_) hframe.interest ?_
  · rw [hframe.pipe]
  · rw [← List.length_eq_zero_iff, ← List.length_eq_zero_iff, hframe.length i]
  · rw [hframe.tasks]
  · rw [hframe.pending]

/-- Tasks are changed, but none that resumes reading. -/
theorem PipesInv.withTasks {s : Server n} (hinv : PipesInv s) {tasks : TaskPool (ServerTask n)}
    (hresumes : ∀ i, resumesOf tasks i = resumesOf s.tasks i) : PipesInv { s with tasks } :=
  hinv.same (fun _ => rfl) (fun _ => Iff.rfl) hresumes rfl (List.Sublist.refl _)

theorem resumesOf_start (tasks : TaskPool (ServerTask n)) (id : Nat) (i : Fin (n + 1)) :
    resumesOf (tasks.start id) i = (resumesOf tasks i).filter (· != id) := by
  rw [resumesOf, resumesOf, TaskPool.ofKind, TaskPool.ofKind, List.filter_map, TaskPool.start,
    List.filter_filter, List.filter_filter]
  refine congrArg (List.map Posted.id) (List.filter_congr fun task _ => ?_)
  exact Bool.and_comm _ _

theorem mem_resumesOf {tasks : TaskPool (ServerTask n)} {i : Fin (n + 1)} {id : Nat} :
    id ∈ resumesOf tasks i ↔ ∃ task ∈ tasks.queued, task.id = id ∧ task.code = .inputpipeResumeRead i := by
  rw [resumesOf, List.mem_map]
  refine exists_congr fun task => ?_
  rw [TaskPool.mem_ofKind, isResume, decide_eq_true_iff, and_assoc]
  exact and_congr_right fun _ => and_comm

/-- A task that does something else is started. -/
theorem resumesOf_startOther {tasks : TaskPool (ServerTask n)} (hsound : tasks.Sound)
    {task : Posted (ServerTask n)} (htask : task ∈ tasks.queued) {i : Fin (n + 1)}
    (hcode : task.code ≠ .inputpipeResumeRead i) :
    resumesOf (tasks.start task.id) i = resumesOf tasks i := by
  rw [resumesOf_start, List.filter_eq_self]
  intro id hid
  obtain ⟨other, hother, rfl, hcode'⟩ := mem_resumesOf.mp hid
  rw [bne_iff_ne]
  intro heq
  have hmade := hsound.made other hother
  rw [heq] at hmade
  exact hcode (((hsound.made task htask).inj hmade).trans hcode')

/-! ### Leaving and joining -/

/-- The client is not the only one of a stream whose pipe is watched in the state IDLE: from such a pipe
`inputpipe_hold` does not take the descriptor. -/
def MayLeave (s : Server n) (i : Fin (n + 1)) : Prop :=
  (s.clients i).length = 1 → (s.pipe i).state = .idle → (s.pipe i).fd ∉ s.interest

/-- The pipes keep their descriptors. -/
def SameFds (s s' : Server n) : Prop :=
  ∀ j, (s'.pipe j).fd = (s.pipe j).fd ∧ (s'.pipe j).initialized = (s.pipe j).initialized

theorem SameFds.fresh {s s' : Server n} (hsame : SameFds s s') {i : Fin (n + 1)} {opened : Option Nat}
    (hfresh : FreshFd s i opened) : FreshFd s' i opened := by
  intro fd hfd j hne hclose
  rw [(hsame j).2] at hclose
  rw [(hsame j).1]
  exact hfresh fd hfd j hne hclose

/-- The pipe of a stream whose last client has left rests. -/
theorem Held.resting {s₀ s s' : Server n} {i : Fin (n + 1)} (hheld : Held s s' i)
    (hinv : PipesInv s₀) (hpipe : s.pipe = s₀.pipe) (hinterest : s.interest = s₀.interest)
    (htasks : s.tasks = s₀.tasks) (hclients : s₀.clients i ≠ []) (hempty : s'.clients i = [])
    (hidle : (s₀.pipe i).state = .idle → (s₀.pipe i).fd ∉ s₀.interest) :
    (s'.pipe i).fd ∉ s'.interest ∧ Status s' i := by
  have hwatched := hheld.interest
  have hresumes := hheld.resumesHere
  have htask := hheld.resumeTask
  have hfd := hheld.fd
  rw [hpipe, hinterest] at hwatched
  rw [hpipe, htasks] at hresumes
  rw [hpipe] at htask hfd
  have hfree : (s'.pipe i).fd ∉ s'.interest := by
    rw [hwatched, hfd]
    split_ifs with hstate
    · exact Finset.notMem_erase _ _
    · cases hinv.status i with
      | reading hthrottle hinit hw hc ht hr =>
          cases hs : (s₀.pipe i).state with
          | idle => exact hidle hs
          | playing => exact absurd hs hstate
          | throttle => exact absurd hs hthrottle
      | waiting hs hinit hw hc id ht hr => exact hw
      | resting hs hw hc hr => exact absurd hc hclients
  refine ⟨hfree, .resting hheld.state (fun _ => hfree) hempty fun id hid => ?_⟩
  rw [hresumes] at hid
  rw [htask]
  cases hinv.status i with
  | reading hthrottle hinit hw hc ht hr =>
      rw [if_neg hthrottle, hr] at hid
      cases hid
  | waiting hs hinit hw hc task ht hr =>
      split_ifs at hid ⊢ with hthrottle
      · rw [hr, ht] at hid
        simp at hid
      · rw [hr, List.mem_singleton] at hid
        rw [ht, hid]
  | resting hs hw hc hr => exact absurd hc hclients

/-- What is read from is what is watched. -/
theorem PipesInv.watched_of_playing {s : Server n} (hinv : PipesInv s) {i : Fin (n + 1)}
    (hstate : (s.pipe i).state = .playing) : (s.pipe i).fd ∈ s.interest := by
  cases hinv.status i with
  | reading hthrottle hinit hwatched hclients htask hresumes => exact hwatched
  | waiting hplaying hinit hwatched hclients id htask hresumes => exact absurd hstate hplaying
  | resting hidle hwatched hclients hresumes => exact absurd (hstate.symm.trans hidle) (by decide)

/-- What is listened to is open. -/
theorem PipesInv.initialized {s : Server n} (hinv : PipesInv s) {i : Fin (n + 1)}
    (hclients : s.clients i ≠ []) : (s.pipe i).initialized = true := by
  cases hinv.status i with
  | reading hstate hinit hwatched hc htask hresumes => exact hinit
  | waiting hstate hinit hwatched hc id htask hresumes => exact hinit
  | resting hstate hwatched hc hresumes => exact absurd hc hclients

theorem streamClientRemove_meets {s : Server n} {i : Fin (n + 1)} {k : Nat} (hhandles : HandleInv s)
    (hinv : PipesInv s) (hclients : s.clients i ≠ []) (hleave : MayLeave s i) :
    Meets Fault.NotRefused (fun s' => PipesInv s' ∧ SameFds s s') (streamClientRemove s i k) := by
  have herase : ((s.clients i).eraseIdx k).length = 0 → (s.clients i).length = 1 := by
    rw [List.length_eraseIdx]
    have hpos := List.length_pos_iff.mpr hclients
    split_ifs <;> omega
  have hhandles' := hhandles.eraseIdx i k
  have hothers : ∀ j, j ≠ i →
      (s.setClients i ((s.clients i).eraseIdx k)).clients j = s.clients j := by
    intro j hne
    rw [Server.setClients_clients, Function.update_of_ne hne]
  have hhere : (s.setClients i ((s.clients i).eraseIdx k)).clients i = (s.clients i).eraseIdx k := by
    rw [Server.setClients_clients, Function.update_self]
  have hpipe : (s.setClients i ((s.clients i).eraseIdx k)).pipe = s.pipe := Server.setClients_pipe ..
  unfold streamClientRemove
  dsimp only
  split_ifs with hlast
  · rw [hhere] at hlast
    refine (inputpipeHold_meets hhandles' ?_).mono fun s' hheld => ?_
    · rw [hpipe]
      exact hinv.watched_of_playing
    · have hempty : s'.clients i = [] := by
        rw [hheld.frame.clients, hhere]
        exact List.length_eq_zero_iff.mp hlast
      obtain ⟨hfree, hstatus⟩ := hheld.resting hinv hpipe rfl rfl hclients hempty
        (hleave (herase hlast))
      have hfd : (s'.pipe i).fd = (s.pipe i).fd := by rw [hheld.fd, hpipe]
      have hinit : (s'.pipe i).initialized = (s.pipe i).initialized := by
        rw [hheld.initialized, hpipe]
      have hsame : ∀ j, j ≠ i → s'.pipe j = s.pipe j := fun j hne => by rw [hheld.pipe j hne, hpipe]
      refine ⟨hinv.change (i := i) ⟨hsame, fun j hne => ?_, hheld.resumes, fun fd hold hnew => ?_, ?_,
        fun _ hmem => ?_, ?_, fun _ hold => ⟨hinit.trans hold, hfd, .inr hempty⟩, hstatus⟩, fun j => ?_⟩
      · rw [hheld.frame.clients, hothers j hne]
      · rw [hheld.interest, hpipe]
        split_ifs with hstate
        · exact Finset.mem_erase.trans (and_iff_right (hold (hinv.initialized hclients)))
        · rfl
      · exact .inl ⟨hfd, hinit.symm.trans⟩
      · rw [← hfd] at hmem
        exact absurd hmem hfree
      · rw [hheld.frame.pending]
        exact List.Sublist.refl _
      · rcases eq_or_ne j i with rfl | hne
        · exact ⟨hfd, hinit⟩
        · rw [hsame j hne]
          exact ⟨rfl, rfl⟩
  · refine .pure ⟨hinv.same (fun j => ?_) (fun j => ?_) (fun _ => rfl) rfl (List.Sublist.refl _),
      fun j => ?_⟩
    · rw [hpipe]
    · rcases eq_or_ne j i with rfl | hne
      · rw [← List.length_eq_zero_iff, ← List.length_eq_zero_iff (l := s.clients j)]
        have hpos := List.length_pos_iff.mpr hclients
        omega
      · rw [hothers j hne]
    · rw [hpipe]
      exact ⟨rfl, rfl⟩

/-- `delete_client_internal`, for a client that is there. -/
theorem deleteClientInternal_meets {s : Server n} {i : Fin (n + 1)} {k : Nat} {client : ClientRecord}
    (hhandles : HandleInv s) (hinv : PipesInv s) (hclient : s.clientAt i k = some client)
    (hleave : MayLeave s i) :
    Meets Fault.NotRefused (fun s' => PipesInv s' ∧ SameFds s s') (deleteClientInternal s i k) := by
  have hmem : client ∈ s.clients i := List.mem_of_getElem? hclient
  unfold deleteClientInternal
  rw [hclient]
  refine .bind (dropTask_meets s.tasks client.purgeTask) fun tasks hdrop => ?_
  have hhandles' : HandleInv { s with tasks } := by
    refine hhandles.of (hhandles.sound.dropTask hdrop) ?_ rfl (fun _ _ => .inl)
    rw [TaskPool.dropTask_history hdrop]
  have hinv' : PipesInv { s with tasks } := hinv.withTasks fun j =>
    resumesOf_frame (.dropTask hhandles.sound (hhandles.purge i client hmem) rfl hdrop)
  exact streamClientRemove_meets hhandles' hinv' (List.ne_nil_of_mem hmem) hleave

theorem clientmgrDeleteClient_meets {s : Server n} {id : UInt16} (hhandles : HandleInv s)
    (hinv : PipesInv s) (hleave : ∀ found ∈ findClient s id, MayLeave s found.1) :
    Meets Fault.NotRefused (fun s' => PipesInv s' ∧ SameFds s s') (clientmgrDeleteClient s id) := by
  unfold clientmgrDeleteClient
  cases hfind : findClient s id with
  | none => exact .pure ⟨hinv, fun _ => ⟨rfl, rfl⟩⟩
  | some found =>
      obtain ⟨i, k⟩ := found
      obtain ⟨client, hclient, -⟩ := findClient_some hfind
      exact deleteClientInternal_meets hhandles hinv hclient (hleave (i, k) hfind)

theorem dropResume_resting {s : Server n} {i : Fin (n + 1)} {tasks : TaskPool (ServerTask n)}
    (hhandles : HandleInv s)
    (hresumes : ∀ id ∈ resumesOf s.tasks i, (s.pipe i).resumeTask = some id)
    (hdrop : s.tasks.dropHandle (s.pipe i).resumeTask = .ok tasks) :
    resumesOf tasks i = [] ∧ ∀ j, j ≠ i → resumesOf tasks j = resumesOf s.tasks j := by
  cases htask : (s.pipe i).resumeTask with
  | none =>
      rw [htask] at hdrop hresumes
      cases hdrop
      refine ⟨List.eq_nil_iff_forall_not_mem.mpr fun id hid => ?_, fun _ _ => rfl⟩
      cases hresumes id hid
  | some id =>
      rw [htask] at hdrop hresumes
      refine ⟨?_, fun j hne => resumesOf_dropResume hhandles.sound (hhandles.resume i id htask) hdrop hne⟩
      rw [resumesOf_dropTask hhandles.sound hdrop, List.filter_eq_nil_iff]
      intro other hother
      simp [(Option.some.inj (hresumes other hother)).symm]

/-- `stream_client_add`: reading starts with the first client. -/
theorem streamClientAdd_meets {opened : Option Nat} {s : Server n} {i : Fin (n + 1)}
    {client : ClientRecord} (hhandles : HandleInv s) (hinv : PipesInv s)
    (hopened : (s.pipe i).initialized = false → FreshFd s i opened) :
    Meets Fault.NotRefused PipesInv (streamClientAdd opened s i client) := by
  have hothers : ∀ j, j ≠ i → (s.setClients i (s.clients i ++ [client])).clients j = s.clients j := by
    intro j hne
    rw [Server.setClients_clients, Function.update_of_ne hne]
  have hhere : (s.setClients i (s.clients i ++ [client])).clients i = s.clients i ++ [client] := by
    rw [Server.setClients_clients, Function.update_self]
  have hpipe : (s.setClients i (s.clients i ++ [client])).pipe = s.pipe := Server.setClients_pipe ..
  unfold streamClientAdd startReading
  rw [hhere, hpipe]
  split_ifs with hfirst
  · obtain ⟨hlength, hidle⟩ := hfirst
    have hempty : s.clients i = [] := by
      rw [List.length_append, List.length_singleton] at hlength
      exact List.length_eq_zero_iff.mp (by omega)
    refine .bind (dropHandle_meets s.tasks (s.pipe i).resumeTask) fun tasks hdrop => ?_
    cases hinv.status i with
    | reading hs hinit hw hc ht hr => exact absurd hempty hc
    | waiting hs hinit hw hc id ht hr => exact absurd hempty hc
    | resting hs hw hc hr =>
        obtain ⟨hhereTasks, hotherTasks⟩ := dropResume_resting hhandles hr hdrop
        have hctx : ({ s.setClients i (s.clients i ++ [client]) with tasks }.setPipe i
            { s.pipe i with resumeTask := none }).pipe =
              Function.update s.pipe i { s.pipe i with resumeTask := none } := by
          rw [Server.setPipe_pipe]
          exact congrArg (fun pipe => Function.update pipe i _) hpipe
        have hclients : ({ s.setClients i (s.clients i ++ [client]) with tasks }.setPipe i
            { s.pipe i with resumeTask := none }).clients =
              (s.setClients i (s.clients i ++ [client])).clients := Server.setPipe_clients ..
        refine BeforeResume.meets ⟨fun j hne => ?_, fun j hne => ?_, hotherTasks, fun _ _ => Iff.rfl, ?_,
          fun hinit => ?_, hw, hhereTasks, ?_, ?_, List.Sublist.refl _, fun _ hinit => ?_⟩ hinv
          fun hinit => hopened ?_
        · rw [hctx, Function.update_of_ne hne]
        · rw [hclients, hothers j hne]
        · rw [hctx, Function.update_self]
        · rwa [hctx, Function.update_self] at hinit
        · rw [hclients, hhere]
          simp
        · rw [hctx, Function.update_self, hidle]
          decide
        · rw [hctx, Function.update_self]
          exact hinit
        · rwa [hctx, Function.update_self] at hinit
  · have hclients : s.clients i ≠ [] := by
      intro hempty
      refine hfirst ⟨by rw [hempty]; rfl, ?_⟩
      cases hinv.status i with
      | reading hs hinit hw hc ht hr => exact absurd hempty hc
      | waiting hs hinit hw hc id ht hr => exact absurd hempty hc
      | resting hs hw hc hr => exact hs
    refine .pure (hinv.same (fun j => ?_) (fun j => ?_) (fun _ => rfl) rfl (List.Sublist.refl _))
    · rw [hpipe]
    · rcases eq_or_ne j i with rfl | hne
      · rw [hhere]
        simp [hclients]
      · rw [hothers j hne]

/-! ### Events of pipes -/

/-- The pipe has nothing to offer that would be read: enough was not read ahead, and `read` fails or
gives no byte. -/
def Quiet (bufferms : UInt16) (clock : ServerClock) (input : Option (List UInt8))
    (ctx : InputpipeCtx) : Prop :=
  bufferFull bufferms clock ctx = false ∧
    ∀ bytes ∈ input.map (List.take (ctx.chunksize.toNat - ctx.dataRead)), bytes = []

/-- What `inputpipe_handle` leaves behind. -/
structure Handled (bufferms : UInt16) (clock : ServerClock) (input : Option (List UInt8))
    (ctx : InputpipeCtx) (tasks : TaskPool (ServerTask n))
    (result : Int × InputpipeCtx × TaskPool (ServerTask n)) : Prop where
  full : result.1 = -1 → bufferFull bufferms clock ctx = true
  fd : result.2.1.fd = ctx.fd
  initialized : result.2.1.initialized = ctx.initialized
  resumeTask : result.2.1.resumeTask = ctx.resumeTask
  state : result.2.1.state = ctx.state ∨ result.2.1.state = .idle ∨
    result.2.1.state = .playing ∧ ¬Quiet bufferms clock input ctx
  resumes : ∀ j, resumesOf result.2.2 j = resumesOf tasks j

theorem finishChunk_serving (clock : ServerClock) (ctx : InputpipeCtx) :
    (finishChunk clock ctx).2.serving = ctx.serving ∧ (finishChunk clock ctx).1 ≠ -1 := by
  unfold finishChunk
  dsimp only
  split_ifs
  · exact ⟨rfl, (by decide : (2 : Int) ≠ -1)⟩
  · exact ⟨rfl, (by decide : (1 : Int) ≠ -1)⟩
  · exact ⟨rfl, (by decide : (0 : Int) ≠ -1)⟩

theorem rescheduleTask_meets (tasks : TaskPool (ServerTask n)) (now : Timespec)
    (timeout millisecs : Int) (handle : Option Nat) :
    Meets Fault.NotRefused (fun tasks' => tasks.rescheduleTask now timeout millisecs handle = .ok tasks')
      (tasks.rescheduleTask now timeout millisecs handle) := by
  refine .result fun fault hfault => ?_
  cases handle with
  | none => cases hfault
  | some id =>
      unfold TaskPool.rescheduleTask at hfault
      dsimp only at hfault
      split_ifs at hfault
      cases hfault
      trivial

/-- The part of `inputpipe_handle` that reads. -/
theorem readInput_meets {bufferms : UInt16} {clock : ServerClock} {i : Fin (n + 1)}
    {input : Option (List UInt8)} {s : Server n} (hhandles : HandleInv s) :
    Meets Fault.NotRefused (fun result => Handled bufferms clock input (s.pipe i) s.tasks (0, result))
      (readInput bufferms clock i input (s.pipe i) s.tasks) := by
  have hzero : (0 : Int) ≠ -1 := by decide
  unfold readInput
  cases hbytes : input.map (List.take ((s.pipe i).chunksize.toNat - (s.pipe i).dataRead)) with
  | none => exact ⟨fun h => absurd h hzero, rfl, rfl, rfl, .inl rfl, fun _ => rfl⟩
  | some bytes =>
      cases bytes with
      | nil => exact ⟨fun h => absurd h hzero, rfl, rfl, rfl, .inr (.inl rfl), fun _ => rfl⟩
      | cons byte bytes =>
          have hnotQuiet : ¬Quiet bufferms clock input (s.pipe i) := fun hquiet =>
            List.cons_ne_nil _ _ (hquiet.2 _ hbytes)
          dsimp only
          split_ifs with hidle
          · refine .pure ⟨fun h => absurd h hzero, rfl, rfl, rfl, .inr (.inr ⟨rfl, hnotQuiet⟩),
              fun j => ?_⟩
            exact resumesOf_frame (.postTask hhandles.sound _ _ _ rfl)
          · refine .bind (rescheduleTask_meets s.tasks _ _ _ _) fun tasks hreschedule => ?_
            refine .pure ⟨fun h => absurd h hzero, rfl, rfl, rfl, .inl rfl, fun j => ?_⟩
            exact resumesOf_frame (.rescheduleTask hhandles.sound (hhandles.idle i) rfl hreschedule)

theorem inputpipeHandle_meets {clock : ServerClock} {i : Fin (n + 1)} {input : Option (List UInt8)}
    {s : Server n} (hhandles : HandleInv s) :
    Meets Fault.NotRefused (Handled s.bufferms clock input (s.pipe i) s.tasks)
      (inputpipeHandle s.bufferms clock i input (s.pipe i) s.tasks) := by
  unfold inputpipeHandle
  split_ifs with hfull
  · exact .pure ⟨fun _ => hfull, rfl, rfl, rfl, .inl rfl, fun _ => rfl⟩
  · refine .bind (readInput_meets hhandles) fun result hread => ?_
    obtain ⟨ctx, tasks⟩ := result
    obtain ⟨hserving, hret⟩ := finishChunk_serving clock ctx
    have hstate : (finishChunk clock ctx).2.state = ctx.state := congrArg Prod.fst hserving
    have hinit : (finishChunk clock ctx).2.initialized = ctx.initialized :=
      congrArg (fun view => view.2.1) hserving
    have htask : (finishChunk clock ctx).2.resumeTask = ctx.resumeTask :=
      congrArg (fun view => view.2.2.1) hserving
    have hfd : (finishChunk clock ctx).2.fd = ctx.fd := congrArg (fun view => view.2.2.2) hserving
    refine .pure ⟨fun h => absurd h hret, hfd.trans hread.fd, hinit.trans hread.initialized,
      htask.trans hread.resumeTask, ?_, hread.resumes⟩
    rcases hread.state with hsame | hidle | ⟨hplaying, hnotQuiet⟩
    · exact .inl (hstate.trans hsame)
    · exact .inr (.inl (hstate.trans hidle))
    · exact .inr (.inr ⟨hstate.trans hplaying, hnotQuiet⟩)

theorem PipesInv.setPipe {s : Server n} (hinv : PipesInv s) {i : Fin (n + 1)} {ctx : InputpipeCtx}
    (hserving : ctx.serving = (s.pipe i).serving) : PipesInv (s.setPipe i ctx) := by
  refine hinv.same (fun j => ?_) (fun j => ?_) (fun _ => rfl) rfl (List.Sublist.refl _)
  · rw [Server.setPipe_pipe]
    rcases eq_or_ne j i with rfl | hne
    · rw [Function.update_self]
      exact hserving
    · rw [Function.update_of_ne hne]
  · rw [Server.setPipe_clients]

theorem PipesInv.keepAudio {s : Server n} (hinv : PipesInv s) (hsound : s.tasks.Sound)
    (clock : ServerClock) (i : Fin (n + 1)) (assembly : Assembly) (nonce : UInt32) :
    PipesInv (keepAudio clock s i assembly nonce) := by
  obtain ⟨hpipe, hclients, -⟩ := @setStream_registry n { s with tasks := (s.tasks.postTask
    clock.uptime (s.bufferms.toNat / 1000 : Nat) (s.bufferms.toNat % 1000 : Nat)
    (.removeOldAudiodata i)).2 } i (keepPacket (s.streams i) assembly nonce clock.uptime) rfl rfl rfl
  refine hinv.same (fun j => ?_) (fun j => ?_) (fun j => ?_) rfl (List.Sublist.refl _)
  · exact congrArg (fun pipe => (pipe j).serving) hpipe
  · exact Iff.of_eq (congrArg (fun clients => clients j = []) hclients)
  · exact resumesOf_frame (.postTask hsound _ _ _ rfl)

theorem PipesInv.removeOldAudiodata {s : Server n} (hinv : PipesInv s) (clock : ServerClock)
    (i : Fin (n + 1)) : PipesInv (removeOldAudiodataTask clock s i) := by
  unfold removeOldAudiodataTask
  split_ifs
  · exact hinv
  · obtain ⟨hpipe, hclients, -⟩ := @setStream_registry n s i { s.streams i with
      packetBuffer := removeOldPackets (timeSubMs clock.systime (.ofNat s.bufferms.toNat))
        (s.streams i).packetBuffer } rfl rfl rfl
    refine hinv.same (fun j => ?_) (fun j => ?_) (fun _ => rfl) rfl (List.Sublist.refl _)
    · exact congrArg (fun pipe => (pipe j).serving) hpipe
    · exact Iff.of_eq (congrArg (fun clients => clients j = []) hclients)

/-- The part of the main loop that sends a chunk. -/
theorem deliver_meets {clock : ServerClock} {encoded : Int × List UInt8} {s : Server n}
    {i : Fin (n + 1)} {restarted : Bool} (hhandles : HandleInv s) (hinv : PipesInv s) :
    Meets Fault.NotRefused PipesInv (deliver clock encoded s i restarted) := by
  have hstopped : RecordFrame s (if restarted then clientmgrStopClients s i else s) := by
    split_ifs
    · exact .stopClients s i
    · exact .refl s
  unfold deliver
  generalize (if restarted then clientmgrStopClients s i else s) = s₁ at hstopped
  have hencode : Meets Fault.NotRefused (fun _ => True) (encodeOpusHandle encoded (s₁.pipe i).chunk) := by
    unfold encodeOpusHandle
    dsimp only
    split_ifs
    · exact trivial
    · exact trivial
    · exact trivial
  refine .bind hencode fun chunk _ => .pure ?_
  have hpiped : PipesInv (s₁.setPipe i { s₁.pipe i with chunk }) :=
    (hinv.recordFrame hstopped).setPipe rfl
  have hsound : (s₁.setPipe i { s₁.pipe i with chunk }).tasks.Sound := by
    rw [Server.setPipe_tasks, hstopped.tasks]
    exact hhandles.sound
  exact (hpiped.keepAudio hsound clock i _ _).recordFrame (.sendToClients _ i _)

/-- The pipe that an event is for. -/
theorem PipesInv.event {s : Server n} (hinv : PipesInv s) {fd : Nat} (hfd : fd ∈ s.pending) :
    ∃ i, streamFindFd (takeEvent s fd) fd = some i ∧ (s.pipe i).initialized = true ∧
      (s.pipe i).fd = fd ∧ (fd ∈ s.interest ∨ s.clients i = []) := by
  obtain ⟨i, hinit, rfl, hserved⟩ := hinv.pending fd hfd
  refine ⟨i, find?_reverse_eq_some_iff.mpr ⟨beq_self_eq_true _, fun j hlt => ?_⟩, hinit, rfl, hserved⟩
  exact beq_eq_false_iff_ne.mpr (hinv.distinct i j hlt.ne hinit (.inr hlt))

theorem PipesInv.takeEvent {s : Server n} (hinv : PipesInv s) (fd : Nat) :
    PipesInv (takeEvent s fd) ∧ fd ∉ (Snapcastc.takeEvent s fd).pending :=
  ⟨hinv.same (fun _ => rfl) (fun _ => Iff.rfl) (fun _ => rfl) rfl List.erase_sublist,
    hinv.nodup.not_mem_erase⟩

/-- A pipe that is watched is throttled: a task will resume reading. -/
theorem throttle_meets {clock : ServerClock} {s : Server n} {i : Fin (n + 1)} {fd : Nat}
    (hsound : s.tasks.Sound) (hinv : PipesInv s) (hfd : (s.pipe i).fd = fd)
    (hinit : (s.pipe i).initialized = true) (hwatched : fd ∈ s.interest) (htaken : fd ∉ s.pending) :
    Meets Fault.NotRefused PipesInv (throttle clock s i fd) := by
  subst hfd
  unfold throttle
  rw [Server.delFd, if_pos hwatched]
  refine .pure (hinv.change (i := i) ⟨fun j hne => ?_, fun j hne => ?_, fun j hne => ?_,
    fun fd hold hnew => ?_, .inl ?_, fun _ hfd => ?_, List.Sublist.refl _, fun hfd => ?_, ?_⟩)
  · rw [Server.setPipe_pipe, Function.update_of_ne hne]
    rfl
  · rw [Server.setPipe_clients]
    rfl
  · exact resumesOf_frame (.postTask hsound _ _ _ (by simp [isResume, hne.symm]))
  · exact Finset.mem_erase.trans (and_iff_right (hold hinit))
  · rw [Server.setPipe_pipe, Function.update_self]
    exact ⟨rfl, id⟩
  · exact absurd hfd (Finset.notMem_erase _ _)
  · exact absurd hfd htaken
  · cases hinv.status i with
    | waiting hs hinit' hw hc id ht hr => exact absurd hwatched hw
    | resting hs hw hc hr => exact absurd hwatched (hw hinit)
    | reading hs hinit' hw hc ht hr =>
        refine .waiting ?_ ?_ ?_ ?_ s.tasks.fresh ?_ ?_
        · rw [Server.setPipe_pipe, Function.update_self]
          simp
        · rw [Server.setPipe_pipe, Function.update_self]
          exact hinit
        · rw [Server.setPipe_pipe, Function.update_self]
          exact Finset.notMem_erase _ _
        · rw [Server.setPipe_clients]
          exact hc
        · rw [Server.setPipe_pipe, Function.update_self]
        · refine (resumesOf_postResume s.tasks _ _ _ i).trans ?_
          rw [hr]
          rfl

/-- After an input event a pipe that is watched is read from, and one that rests does so still. -/
theorem Handled.inv {clock : ServerClock} {input : Option (List UInt8)} {s : Server n}
    {i : Fin (n + 1)} {ret : Int} {ctx : InputpipeCtx} {tasks : TaskPool (ServerTask n)}
    (hhandled : Handled s.bufferms clock input (s.pipe i) s.tasks (ret, ctx, tasks))
    (hinv : PipesInv s) (hinit : (s.pipe i).initialized = true)
    (hserved : (s.pipe i).fd ∈ s.interest ∨ s.clients i = [])
    (hquiet : (s.pipe i).fd ∉ s.interest → Quiet s.bufferms clock input (s.pipe i)) :
    PipesInv ({ s with tasks }.setPipe i ctx) := by
  have hpipe : ({ s with tasks }.setPipe i ctx).pipe = Function.update s.pipe i ctx :=
    Server.setPipe_pipe ..
  have hclients : ({ s with tasks }.setPipe i ctx).clients = s.clients := Server.setPipe_clients ..
  have hhere : ({ s with tasks }.setPipe i ctx).pipe i = ctx := by
    rw [hpipe, Function.update_self]
  have hctx : ctx.initialized = true := hhandled.initialized.trans hinit
  refine hinv.change (i := i) ⟨fun j hne => ?_, fun j _ => ?_, fun j _ => hhandled.resumes j,
    fun _ _ _ => Iff.rfl, .inl ?_, fun _ _ => ?_, List.Sublist.refl _, fun _ _ => ?_, ?_⟩
  · rw [hpipe, Function.update_of_ne hne]
  · rw [hclients]
  · rw [hhere]
    exact ⟨hhandled.fd, fun _ => hinit⟩
  · rw [hhere]
    exact ⟨hctx, hhandled.fd⟩
  · rw [hhere, hclients]
    refine ⟨hctx, hhandled.fd, ?_⟩
    rw [hhandled.fd]
    exact hserved
  · cases hinv.status i with
    | waiting hs hinit' hw hc id ht hr => exact absurd hserved (not_or.mpr ⟨hw, hc⟩)
    | reading hs hinit' hw hc ht hr =>
        refine .reading ?_ ?_ ?_ ?_ ?_ ((hhandled.resumes i).trans hr)
        · rw [hhere]
          rcases hhandled.state with hsame | hidle | ⟨hplaying, -⟩
          · exact fun h => hs (hsame.symm.trans h)
          · exact fun h => absurd (hidle.symm.trans h) (by decide)
          · exact fun h => absurd (hplaying.symm.trans h) (by decide)
        · rw [hhere]
          exact hctx
        · rw [hhere, hhandled.fd]
          exact hw
        · rw [hclients]
          exact hc
        · rw [hhere]
          exact hhandled.resumeTask.trans ht
    | resting hs hw hc hr =>
        refine .resting ?_ (fun _ => ?_) ?_ fun id hid => ?_
        · rw [hhere]
          rcases hhandled.state with hsame | hidle | ⟨-, hnotQuiet⟩
          · exact hsame.trans hs
          · exact hidle
          · exact absurd (hquiet (hw hinit)) hnotQuiet
        · rw [hhere, hhandled.fd]
          exact hw hinit
        · rw [hclients]
          exact hc
        · rw [hhere]
          rw [Server.setPipe_tasks, hhandled.resumes i] at hid
          exact hhandled.resumeTask.trans (hr id hid)

theorem HandleInv.takeEvent {s : Server n} (hinv : HandleInv s) (fd : Nat) :
    HandleInv (takeEvent s fd) :=
  ⟨hinv.sound, hinv.purge, hinv.resume, hinv.idle⟩

/-- An input event of a pipe. -/
theorem pipeInput_meets {clock : ServerClock} {input : Option (List UInt8)}
    {encoded : Int × List UInt8} {s : Server n} {fd : Nat} (hhandles : HandleInv s)
    (hinv : PipesInv s) (hfd : fd ∈ s.pending)
    (hquiet : fd ∉ s.interest → ∀ i ∈ streamFindFd s fd, Quiet s.bufferms clock input (s.pipe i)) :
    Meets Fault.NotRefused PipesInv (pipeInput clock input encoded (takeEvent s fd) fd) := by
  obtain ⟨i, hfind, hinit, rfl, hserved⟩ := hinv.event hfd
  obtain ⟨hinv', htaken⟩ := hinv.takeEvent (s.pipe i).fd
  have hhandles' := hhandles.takeEvent (s.pipe i).fd
  unfold pipeInput
  rw [hfind]
  refine .bind ((inputpipeHandle_meets hhandles').and fun result hrun =>
    PipeFrame.inputpipeHandle hhandles' hrun) fun result hresult => ?_
  obtain ⟨ret, ctx, tasks⟩ := result
  obtain ⟨hhandled, hframe⟩ := hresult
  have hread := hhandled.inv hinv' hinit hserved fun hunwatched => hquiet hunwatched i hfind
  have hctx : ({ takeEvent s (s.pipe i).fd with tasks }.setPipe i ctx).pipe i = ctx := by
    rw [Server.setPipe_pipe, Function.update_self]
  have hsame : (({ takeEvent s (s.pipe i).fd with tasks }.setPipe i ctx).pipe i).fd = (s.pipe i).fd := by
    rw [hctx]
    exact hhandled.fd
  dsimp only
  split_ifs with hret hpositive
  · have hwatched : (s.pipe i).fd ∈ s.interest := by
      by_contra hunwatched
      have hfull : bufferFull s.bufferms clock (s.pipe i) = true := hhandled.full hret
      rw [(hquiet hunwatched i hfind).1] at hfull
      cases hfull
    refine throttle_meets hframe.handles.sound hread hsame ?_ hwatched htaken
    rw [hctx]
    exact hhandled.initialized.trans hinit
  · exact deliver_meets hframe.handles hread
  · exact .pure hread

/-- What `inputpipe_uninit` leaves behind. -/
structure Closed (s s' : Server n) (i : Fin (n + 1)) : Prop where
  clients : s'.clients = s.clients
  pending : s'.pending = s.pending
  pipe : ∀ j, j ≠ i → s'.pipe j = s.pipe j
  state : (s'.pipe i).state = .idle
  fd : (s'.pipe i).fd = (s.pipe i).fd
  initialized : (s'.pipe i).initialized = false
  interest : s'.interest = s.interest.erase (s.pipe i).fd
  resumeTask : (s.pipe i).state ≠ .throttle → (s'.pipe i).resumeTask = (s.pipe i).resumeTask
  resumes : ∀ j, j ≠ i → resumesOf s'.tasks j = resumesOf s.tasks j
  resumesHere : (s.pipe i).state ≠ .throttle → resumesOf s'.tasks i = resumesOf s.tasks i

theorem inputpipeUninit_meets {s : Server n} {i : Fin (n + 1)} (hhandles : HandleInv s)
    (hwatched : (s.pipe i).state = .playing → (s.pipe i).fd ∈ s.interest) :
    Meets Fault.NotRefused (fun s' => Closed s s' i) (inputpipeUninit s i) := by
  refine .bind (inputpipeHold_meets hhandles hwatched) fun s₁ hheld => .pure ?_
  refine ⟨?_, hheld.frame.pending, fun j hne => ?_, ?_, ?_, ?_, ?_, fun hstate => ?_, hheld.resumes,
    fun hstate => ?_⟩
  · rw [Server.setPipe_clients]
    exact hheld.frame.clients
  · rw [Server.setPipe_pipe, Function.update_of_ne hne]
    exact hheld.pipe j hne
  · rw [Server.setPipe_pipe, Function.update_self]
    exact hheld.state
  · rw [Server.setPipe_pipe, Function.update_self]
    exact hheld.fd
  · rw [Server.setPipe_pipe, Function.update_self]
  · change s₁.interest.erase (s₁.pipe i).fd = _
    rw [hheld.fd, hheld.interest]
    split_ifs
    · exact Finset.erase_idem
    · rfl
  · rw [Server.setPipe_pipe, Function.update_self]
    exact hheld.resumeTask.trans (if_neg hstate)
  · exact hheld.resumesHere.trans (if_neg hstate)

/-- An error or hang-up event of a pipe: it is closed, and opened again if somebody listens. -/
theorem pipeHangup_meets {opened : Option Nat} {s : Server n} {fd : Nat} (hhandles : HandleInv s)
    (hinv : PipesInv s) (hfd : fd ∈ s.pending)
    (hopened : ∀ i ∈ streamFindFd s fd, FreshFd s i opened) :
    Meets Fault.NotRefused PipesInv (pipeHangup opened (takeEvent s fd) fd) := by
  obtain ⟨i, hfind, hinit, rfl, hserved⟩ := hinv.event hfd
  have hfresh := hopened i hfind
  obtain ⟨hinv', htaken⟩ := hinv.takeEvent (s.pipe i).fd
  have hhandles' := hhandles.takeEvent (s.pipe i).fd
  unfold pipeHangup
  rw [hfind]
  have hplaying := fun hstate => hinv'.watched_of_playing (i := i) hstate
  refine .bind (inputpipeUninit_meets hhandles' hplaying) fun s₁ hclosed => ?_
  have hinterest : ∀ fd, fd ≠ (s.pipe i).fd → (fd ∈ s₁.interest ↔ fd ∈ s.interest) := fun fd hne => by
    rw [hclosed.interest]
    exact Finset.mem_erase.trans (and_iff_right hne)
  have hfree : (s.pipe i).fd ∉ s₁.interest := by
    rw [hclosed.interest]
    exact Finset.notMem_erase _ _
  have hpending : s₁.pending.Sublist (takeEvent s (s.pipe i).fd).pending := by
    rw [hclosed.pending]
  have htaken' : (s.pipe i).fd ∉ s₁.pending := by
    rw [hclosed.pending]
    exact htaken
  have hclients : ∀ j, j ≠ i → (s₁.clients j = [] ↔ s.clients j = []) := fun j _ => by
    rw [hclosed.clients]
    rfl
  cases hinv.status i with
  | waiting hs hinit' hw hc id ht hr => exact absurd hserved (not_or.mpr ⟨hw, hc⟩)
  | reading hs hinit' hw hc ht hr =>
      have hlistening : s₁.clients i ≠ [] := by
        rw [hclosed.clients]
        exact hc
      have hidle : (s₁.pipe i).state ≠ .playing := by
        rw [hclosed.state]
        decide
      have hbefore : BeforeResume (takeEvent s (s.pipe i).fd) s₁ i :=
        ⟨hclosed.pipe, hclients, hclosed.resumes, fun fd hne => hinterest fd (hne hinit), hclosed.fd,
          fun _ => hinit, fun _ => hfree, (hclosed.resumesHere hs).trans hr, hlistening, hidle, hpending,
          fun hmem => absurd hmem htaken'⟩
      exact hbefore.meets hinv' fun _ => hfresh
  | resting hs hw hc hr =>
      have hempty : s₁.clients i = [] := by
        rw [hclosed.clients]
        exact hc
      have hthrottle : ((takeEvent s (s.pipe i).fd).pipe i).state ≠ .throttle := by
        change (s.pipe i).state ≠ .throttle
        rw [hs]
        decide
      rw [inputpipeResumeRead_nobody hempty]
      refine .pure (hinv'.change (i := i) ⟨hclosed.pipe, hclients, hclosed.resumes,
        fun fd hold _ => hinterest fd (hold hinit), .inl ⟨hclosed.fd, fun _ => hinit⟩,
        fun _ hmem => absurd hmem hfree, hpending, fun hmem => absurd hmem htaken', ?_⟩)
      refine .resting hclosed.state (fun hopen => ?_) hempty fun id hid => ?_
      · rw [hclosed.initialized] at hopen
        cases hopen
      · rw [hclosed.resumesHere hthrottle] at hid
        exact (hclosed.resumeTask hthrottle).trans (hr id hid)

end Snapcastc
