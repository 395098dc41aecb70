import Snapcastc.ServerDescriptors

/-! Runs of the server in which `epoll` refuses no descriptor and no stream with clients is stalled. Both
go wrong when the last client leaves while the pipe is watched in the state IDLE, when an event that is
out of date still finds something to read, and when a descriptor gets the number that another stream
has kept of its closed pipe. -/

namespace Snapcastc

open Calls

variable {n : Nat}

theorem PipesInv.finish {s : Server n} (hinv : PipesInv s) :
    PipesInv { s with tasks := s.tasks.finish } :=
  hinv.withTasks fun _ => rfl

theorem HandleInv.start {s : Server n} (hinv : HandleInv s) {task : Posted (ServerTask n)}
    (htask : task ∈ s.tasks.queued) : HandleInv { s with tasks := s.tasks.start task.id } :=
  hinv.of (hinv.sound.start htask) (List.prefix_refl _) rfl fun _ _ => .inl

/-- The task to resume reading is executed. -/
theorem fireResume_meets {opened : Option Nat} {s : Server n} {i : Fin (n + 1)}
    {task : Posted (ServerTask n)} (hhandles : HandleInv s) (hinv : PipesInv s)
    (htask : task ∈ s.tasks.queued) (hcode : task.code = .inputpipeResumeRead i) :
    Meets Fault.NotRefused PipesInv
      (inputpipeResumeRead opened { s with tasks := s.tasks.start task.id } i) := by
  have hmem : task.id ∈ resumesOf s.tasks i := mem_resumesOf.mpr ⟨task, htask, rfl, hcode⟩
  have hothers : ∀ j, j ≠ i → resumesOf (s.tasks.start task.id) j = resumesOf s.tasks j := by
    intro j hne
    refine resumesOf_startOther hhandles.sound htask ?_
    rw [hcode]
    simpa using hne.symm
  have hhere := resumesOf_start s.tasks task.id i
  cases hinv.status i with
  | reading hs hinit hw hc ht hr =>
      rw [hr] at hmem
      cases hmem
  | waiting hs hinit hw hc resume ht hr =>
      rw [hr, List.mem_singleton] at hmem
      have hnone : resumesOf (s.tasks.start task.id) i = [] := by
        rw [hhere, hr, hmem]
        simp
      have hbefore : BeforeResume s { s with tasks := s.tasks.start task.id } i :=
        ⟨fun _ _ => rfl, fun _ _ => Iff.rfl, hothers, fun _ _ => Iff.rfl, rfl, id, fun _ => hw, hnone,
          hc, hs, List.Sublist.refl _, fun _ => id⟩
      exact hbefore.meets hinv fun hclosed => absurd (hinit.symm.trans hclosed) (by decide)
  | resting hs hw hc hr =>
      have hempty : ({ s with tasks := s.tasks.start task.id } : Server n).clients i = [] := hc
      rw [inputpipeResumeRead_nobody hempty]
      refine .pure (hinv.change (i := i) ⟨fun _ _ => rfl, fun _ _ => Iff.rfl, hothers,
        fun _ _ _ => Iff.rfl, .inl ⟨rfl, id⟩, fun hinit _ => ⟨hinit, rfl⟩, List.Sublist.refl _,
        fun _ hinit => ⟨hinit, rfl, .inr hc⟩, .resting hs hw hc fun id hid => ?_⟩)
      rw [hhere] at hid
      exact hr id (List.mem_of_mem_filter hid)

/-- A pipe is set idle. -/
theorem setStreamIdle_inv {s s' : Server n} {i : Fin (n + 1)} (hhandles : HandleInv s)
    (hinv : PipesInv s) (hrun : setStreamIdle s i = .ok s') : PipesInv s' := by
  obtain ⟨hpipe, hstate, hfd, hinit, htask, hinterest, hresumes⟩ := setStreamIdle_fields hhandles hrun
  have hframe := PipeFrame.setStreamIdle hhandles hrun
  have hwatched : (s'.pipe i).fd ∈ s'.interest ↔ (s.pipe i).fd ∈ s.interest := by
    rw [hfd, hinterest]
  refine hinv.change (i := i) ⟨hpipe, fun j _ => ?_, fun j _ => hresumes j, fun fd _ _ => ?_,
    .inl ⟨hfd, hinit.symm.trans⟩, fun hopen _ => ⟨hinit.trans hopen, hfd⟩, ?_, fun hmem hopen => ?_, ?_⟩
  · rw [hframe.clients]
  · rw [hinterest]
  · rw [hframe.pending]
  · rw [hframe.pending] at hmem
    refine ⟨hinit.trans hopen, hfd, (hinv.served hopen hmem).imp hwatched.mpr fun hempty => ?_⟩
    rw [hframe.clients]
    exact hempty
  · cases hinv.status i with
    | reading hs hi hw hc ht hr =>
        refine .reading ?_ (hinit.trans hi) (hwatched.mpr hw) ?_ (htask.trans ht)
          ((hresumes i).trans hr)
        · rw [hstate]
          decide
        · rw [hframe.clients]
          exact hc
    | waiting hs hi hw hc id ht hr =>
        refine .waiting ?_ (hinit.trans hi) (hw ∘ hwatched.mp) ?_ id (htask.trans ht)
          ((hresumes i).trans hr)
        · rw [hstate]
          decide
        · rw [hframe.clients]
          exact hc
    | resting hs hw hc hr =>
        refine .resting hstate (fun hi => hw (hinit.symm.trans hi) ∘ hwatched.mp) ?_ fun id hid => ?_
        · rw [hframe.clients]
          exact hc
        · rw [hresumes i] at hid
          exact htask.trans (hr id hid)

/-- `taskqueue_run`. -/
theorem fireTask_meets {clock : ServerClock} {opened : Option Nat} {s : Server n} {id : Nat}
    (hhandles : HandleInv s) (hinv : PipesInv s)
    (hleave : ∀ task ∈ s.tasks.queued, task.id = id → timespecCmp task.due clock.uptime ≤ 0 →
      ∀ purge ∈ purgeOf task, ∀ found ∈ findClient s purge.2, MayLeave s found.1) :
    Meets Fault.NotRefused PipesInv (fireTask clock opened s id) := by
  unfold fireTask
  cases hfind : s.tasks.queued.find? (·.id == id) with
  | none => exact .pure hinv
  | some task =>
      have htask := List.mem_of_find?_eq_some hfind
      have hid := List.find?_some hfind
      obtain rfl : task.id = id := eq_of_beq hid
      dsimp only
      split_ifs with hdue
      · exact .pure hinv
      · have hhandles' := hhandles.start htask
        have hstarted : (∀ i, task.code ≠ .inputpipeResumeRead i) →
            PipesInv { s with tasks := s.tasks.start task.id } := fun hcode =>
          hinv.withTasks fun i => resumesOf_startOther hhandles.sound htask (hcode i)
        have hrun : Meets Fault.NotRefused PipesInv
            (runTask clock opened { s with tasks := s.tasks.start task.id } task.code) := by
          cases hcode : task.code with
          | scheduleDeleteClient client =>
              have hpurge : purgeOf task = some (task.id, client) := by
                unfold purgeOf
                rw [hcode]
              have hdelete := clientmgrDeleteClient_meets hhandles' (hstarted (by simp [hcode]))
                (hleave task htask rfl (not_lt.mp hdue) _ hpurge)
              exact hdelete.mono fun s' hs' => hs'.1
          | inputpipeResumeRead i => exact fireResume_meets hhandles hinv htask hcode
          | setIdle i =>
              refine (setStreamIdle_meets _ i).mono fun s' hidle => ?_
              exact setStreamIdle_inv hhandles' (hstarted (by simp [hcode])) hidle
          | removeOldAudiodata i =>
              exact .pure ((hstarted (by simp [hcode])).removeOldAudiodata clock i)
        exact .bind hrun fun s' hs' => .pure hs'.finish

/-! ### HELLO -/

theorem sendAudioBuffer_meets (s : Server n) (client : ClientRecord) :
    Meets Fault.NotRefused (RecordFrame s) (clientmgrSendAudioBufferToClient s client) := by
  have hany : Meets Fault.NotRefused (fun _ => True) (clientmgrSendAudioBufferToClient s client) := by
    unfold clientmgrSendAudioBufferToClient
    split
    · exact trivial
    · exact trivial
  exact (Meets.result fun fault => hany.of_error).mono fun s' hrun => .sendAudioBuffer hrun

theorem greetClient_meets (s : Server n) (peer : Peer) :
    Meets Fault.NotRefused (RecordFrame s) (greetClient s peer) := by
  have hany : Meets Fault.NotRefused (fun _ => True) (greetClient s peer) := by
    unfold greetClient
    split
    · exact trivial
    · split
      · exact trivial
      · exact .bind (sendAudioBuffer_meets _ _) fun _ _ => trivial
  exact (Meets.result fun fault => hany.of_error).mono fun s' hrun => .greetClient hrun

/-- A client that was not known joins the first stream. -/
theorem addClient_meets {clock : ServerClock} {opened : Option Nat} {s : Server n} {peer : Peer}
    (hreg : RegistryInv s) (hinv : PipesInv s)
    (hopened : (s.pipe 0).initialized = false → FreshFd s 0 opened) :
    Meets Fault.NotRefused PipesInv (addClient clock opened s peer) := by
  have hsound := hreg.handles.sound
  obtain ⟨hpipe, hclients, htasks, -⟩ := withPurgeTask_fields hreg.unstarted clock peer.hello.id
  obtain ⟨hhandles, -, -⟩ := withPurgeTask_handles hreg.handles hreg.unstarted clock peer.hello.id
  obtain ⟨hinterest, hpending⟩ := initFirstStream_events
    ({ s with tasks := (s.tasks.postTask clock.uptime 5 0
      (.scheduleDeleteClient peer.hello.id)).2 } : Server n)
  have hset : PipesInv (withPurgeTask clock s peer.hello.id) := by
    refine hinv.same (fun i => ?_) (fun i => ?_) (fun i => ?_) hinterest ?_
    · rw [hpipe]
    · rw [hclients]
    · rw [htasks]
      exact resumesOf_frame (.postTask hsound _ _ _ rfl)
    · rw [withPurgeTask, hpending]
  have hfresh : ((withPurgeTask clock s peer.hello.id).pipe 0).initialized = false →
      FreshFd (withPurgeTask clock s peer.hello.id) 0 opened := by
    unfold FreshFd
    rw [hpipe]
    exact hopened
  have hcreate : Meets Fault.NotRefused PipesInv (createClient clock opened s peer) :=
    .bind (streamClientAdd_meets hhandles hset hfresh) fun s₁ hjoined =>
      (greetClient_meets s₁ peer).mono fun s₂ hgreeted => hjoined.recordFrame hgreeted
  refine .bind hcreate fun s₁ hcreated => ?_
  split
  · exact trivial
  · exact .pure (hcreated.recordFrame (.noteSeen clock s₁ 0 _ peer))

/-- `clientmgr_refresh_client`. -/
theorem clientmgrRefreshClient_meets {clock : ServerClock} {opened : Option Nat} {s : Server n}
    {peer : Peer} (hreg : RegistryInv s) (hinv : PipesInv s)
    (hopened : (s.pipe 0).initialized = false → FreshFd s 0 opened)
    (hleave : ∀ found ∈ findClient s peer.hello.id, ∀ client ∈ s.clientAt found.1 found.2,
      peer.port ≠ client.port → MayLeave s found.1) :
    Meets Fault.NotRefused PipesInv (clientmgrRefreshClient clock opened s peer) := by
  unfold clientmgrRefreshClient
  cases hfind : findClient s peer.hello.id with
  | none => exact addClient_meets hreg hinv hopened
  | some found =>
      obtain ⟨i, k⟩ := found
      obtain ⟨existing, hclient, -⟩ := findClient_some hfind
      dsimp only
      rw [hclient]
      dsimp only
      split_ifs with hport
      · have hleave' : ∀ found ∈ findClient s peer.hello.id, MayLeave s found.1 := by
          intro found hfound
          obtain rfl := Option.some.inj (hfind.symm.trans hfound)
          exact hleave (i, k) hfind existing hclient hport
        refine .bind ((clientmgrDeleteClient_meets hreg.handles hinv hleave').and fun s₁ hrun =>
          (clientmgrDeleteClient_spec hreg hrun).1.inv hreg) fun s₁ hs₁ => ?_
        obtain ⟨⟨hdeleted, hsame⟩, hreg'⟩ := hs₁
        refine addClient_meets hreg' hdeleted fun hinit => hsame.fresh (hopened ?_)
        rw [← (hsame 0).2]
        exact hinit
      · refine .bind (rescheduleTask_meets s.tasks _ _ _ _) fun tasks hreschedule => .pure ?_
        have hmade : ∀ id, some existing.purgeTask = some id →
            s.tasks.Made id (.scheduleDeleteClient existing.id) := by
          intro id hid
          rw [← Option.some.inj hid]
          exact hreg.handles.purge i existing (List.mem_of_getElem? hclient)
        have htasks : PipesInv { s with tasks } := hinv.withTasks fun j =>
          resumesOf_frame (.rescheduleTask hreg.handles.sound hmade rfl hreschedule)
        exact htasks.recordFrame (.noteSeen clock { s with tasks } i k peer)

/-! ### Client.SetStream and Client.SetVolume -/

/-- A client is moved from one stream to another. -/
theorem changeStream_meets {opened : Option Nat} {s : Server n} {client : ClientRecord}
    {i j : Fin (n + 1)} {k : Nat} (hreg : RegistryInv s) (hinv : PipesInv s)
    (hclient : s.clientAt i k = some client)
    (hcondition : clientStreamIsChanged s i j = true →
      ((s.pipe j).initialized = false → FreshFd s j opened) ∧ MayLeave s i) :
    Meets Fault.NotRefused PipesInv (changeStream opened s client i k j) := by
  unfold changeStream
  split_ifs with hchanged
  · obtain ⟨hopened, hleave⟩ := hcondition hchanged
    have hne := ne_of_clientStreamIsChanged hchanged
    have hstopped : RecordFrame s (intercomStopClientOf s client) := .send s _ _ _ _
    have hinv₁ := hinv.recordFrame hstopped
    have hhandles₁ := hstopped.handles hreg.handles
    have hmade := hhandles₁.purge i client (List.mem_of_getElem? hclient)
    refine .bind ((streamClientAdd_meets hhandles₁ hinv₁ hopened).and fun s₂ hrun =>
      And.intro (streamClientAdd_spec hhandles₁ hmade hrun) (streamClientAdd_pipe hrun hne))
      fun s₂ hs₂ => ?_
    obtain ⟨hinv₂, hframe, hpipe⟩ := hs₂
    have hclients : s₂.clients i = s.clients i := by
      rw [hframe.clients, Server.setClients_clients, Function.update_of_ne hne]
      rfl
    have hlistening : s₂.clients i ≠ [] := by
      rw [hclients]
      exact List.ne_nil_of_mem (List.mem_of_getElem? hclient)
    refine (streamClientRemove_meets hframe.handles hinv₂ hlistening ?_).mono fun s' hs' => hs'.1
    intro hlength hidle
    rw [hclients] at hlength
    have hidle' : (s.pipe i).state = .idle := by rwa [hpipe] at hidle
    have hunwatched := hleave hlength hidle'
    -- the pipe waits for a task, and that has not changed
    cases hinv.status i with
    | reading hs hinit hw hc ht hr => exact absurd hw hunwatched
    | resting hs hw hc hr => exact absurd (hclients.trans hc) hlistening
    | waiting hs hinit hw hc id ht hr =>
        cases hinv₂.status i with
        | reading hs' hinit' hw' hc' ht' hr' =>
            rw [hpipe] at ht'
            exact absurd (ht.symm.trans ht') (Option.some_ne_none id)
        | waiting hs' hinit' hw' hc' id' ht' hr' => exact hw'
        | resting hs' hw' hc' hr' => exact absurd hc' hlistening
  · exact .pure hinv

/-- `handle_client_setstream`. -/
theorem handleClientSetstream_meets {opened : Option Nat} {s : Server n} {request : JsonrpcRequest}
    (hreg : RegistryInv s) (hinv : PipesInv s)
    (hcondition : ∀ found ∈ (setstreamLoop s request.parameters.reverse none none).1,
      ∀ j ∈ (setstreamLoop s request.parameters.reverse none none).2,
        clientStreamIsChanged s found.1 j = true →
          ((s.pipe j).initialized = false → FreshFd s j opened) ∧ MayLeave s found.1) :
    Meets Fault.NotRefused (fun result => PipesInv result.1) (handleClientSetstream opened s request) := by
  unfold handleClientSetstream
  split
  · rename_i i k newstream hloop
    have hmove : Meets Fault.NotRefused (fun result => PipesInv result.1)
        (moveClient opened s i k newstream) := by
      rcases setstreamLoop_client (congrArg Prod.fst hloop) with hnone | ⟨id, hfind⟩
      · cases hnone
      · obtain ⟨client, hclient, rfl⟩ := findClient_some hfind
        unfold moveClient
        rw [hclient]
        dsimp only
        rw [streamFind_of_findClient hfind]
        exact .bind (changeStream_meets hreg hinv hclient (hcondition (i, k)
          (congrArg Prod.fst hloop) newstream (congrArg Prod.snd hloop)))
          fun s₁ hs₁ => .pure hs₁
    exact .bind hmove fun result hresult => .pure hresult
  · exact .pure hinv

theorem setvolumeLoop_meets (s : Server n) (parameters : List Parameter) (found : SetvolumeFound n) :
    Meets Fault.NotRefused (fun _ => True) (setvolumeLoop s parameters found) := by
  induction parameters generalizing found with
  | nil => exact trivial
  | cons p parameters ih =>
      rw [setvolumeLoop]
      split_ifs
      · split
        · exact trivial
        · exact ih _
      · split
        · exact trivial
        · rename_i object _
          have hread : Meets Fault.NotRefused (fun _ => True) (readVolume found object) := by
            unfold readVolume
            split
            · split_ifs
              · exact trivial
              · exact trivial
            · split
              · exact trivial
              · exact trivial
          refine .bind hread fun result _ => ?_
          cases result with
          | none => exact trivial
          | some found => exact ih found
      · exact ih found

theorem applySetvolume_meets (s : Server n) (found : SetvolumeFound n) (jump : SetvolumeExit) :
    Meets Fault.NotRefused (fun _ => True) (applySetvolume s found jump) := by
  have hvolume : ∀ i k, Meets Fault.NotRefused (fun _ => True) (applyVolume s i k found.volPercent) := by
    intro i k
    unfold applyVolume
    split
    · exact trivial
    · split
      · exact trivial
      · exact trivial
  have hmute : ∀ (s : Server n) i k, Meets Fault.NotRefused (fun _ => True)
      (applyMute s i k found.mute) := by
    intro s i k
    unfold applyMute clientmgrClientSetmute
    split
    · exact trivial
    · split
      · exact trivial
      · dsimp only
        split_ifs
        · exact trivial
        · exact (sendAudioBuffer_meets _ _).mono fun _ _ => trivial
        · exact trivial
  cases jump with
  | reply => exact trivial
  | apply =>
      unfold applySetvolume
      dsimp only
      split
      · exact trivial
      · exact .bind (hvolume _ _) fun s₁ _ => hmute s₁ _ _

/-- `handle_client_setvolume`. -/
theorem handleClientSetvolume_meets (s : Server n) (request : JsonrpcRequest) :
    Meets Fault.NotRefused (fun result => RecordFrame s result.1) (handleClientSetvolume s request) := by
  have hany : Meets Fault.NotRefused (fun _ => True) (handleClientSetvolume s request) :=
    .bind (setvolumeLoop_meets s _ _) fun result _ =>
      .bind (applySetvolume_meets s result.1 result.2) fun _ _ => trivial
  exact (Meets.result fun fault => hany.of_error).mono fun result hrun => .setVolume hrun

/-! ### Steps and runs -/

/-- The event does not disturb how the pipes are served: an event of a pipe that is out of date finds
nothing to read, the last client does not leave a stream whose pipe is watched in the state IDLE, and
a pipe that is opened gets no number that is in use or that a later stream has kept. -/
def Undisturbed (s : Server n) : ServerEvent → Prop
  | .epollWait _ => True
  | .pipeInput fd input _ clock =>
      fd ∈ s.pending → fd ∉ s.interest → ∀ i ∈ streamFindFd s fd, Quiet s.bufferms clock input (s.pipe i)
  | .pipeHangup fd opened => fd ∈ s.pending → ∀ i ∈ streamFindFd s fd, FreshFd s i opened
  | .hello peer _ opened =>
      ((s.pipe firstStream).initialized = false → FreshFd s firstStream opened) ∧
        ∀ found ∈ findClient s peer.hello.id, ∀ client ∈ s.clientAt found.1 found.2,
          peer.port ≠ client.port → MayLeave s found.1
  | .request _ _ _ _ => True
  | .setStream request opened =>
      ∀ found ∈ (setstreamLoop s request.parameters.reverse none none).1,
        ∀ j ∈ (setstreamLoop s request.parameters.reverse none none).2,
          clientStreamIsChanged s found.1 j = true →
            ((s.pipe j).initialized = false → FreshFd s j opened) ∧ MayLeave s found.1
  | .setVolume _ => True
  | .fire id clock _ =>
      ∀ task ∈ s.tasks.queued, task.id = id → timespecCmp task.due clock.uptime ≤ 0 →
        ∀ purge ∈ purgeOf task, ∀ found ∈ findClient s purge.2, MayLeave s found.1

instance (s : Server n) (i : Fin (n + 1)) (opened : Option Nat) : Decidable (FreshFd s i opened) := by
  unfold FreshFd
  infer_instance

instance (s : Server n) (i : Fin (n + 1)) : Decidable (MayLeave s i) := by
  unfold MayLeave
  infer_instance

instance (bufferms : UInt16) (clock : ServerClock) (input : Option (List UInt8)) (ctx : InputpipeCtx) :
    Decidable (Quiet bufferms clock input ctx) := by
  unfold Quiet
  infer_instance

instance (s : Server n) (event : ServerEvent) : Decidable (Undisturbed s event) := by
  cases event <;> unfold Undisturbed <;> infer_instance

def UndisturbedRun : Server n → List ServerEvent → Prop
  | _, [] => True
  | s, event :: events =>
      Undisturbed s event ∧ ∀ s', serverStep s event = .ok s' → UndisturbedRun s' events

instance : (s : Server n) → (events : List ServerEvent) → Decidable (UndisturbedRun s events)
  | _, [] => .isTrue trivial
  | s, event :: events =>
      match hstep : serverStep s event with
      | .error _ => decidable_of_iff (Undisturbed s event) (by simp [UndisturbedRun, hstep])
      | .ok s' =>
          have := instDecidableUndisturbedRun s' events
          decidable_of_iff (Undisturbed s event ∧ UndisturbedRun s' events)
            (by simp [UndisturbedRun, hstep])

theorem serverStep_meets {s : Server n} {event : ServerEvent} (hreg : RegistryInv s)
    (hinv : PipesInv s) (hevent : Undisturbed s event) :
    Meets Fault.NotRefused PipesInv (serverStep s event) := by
  cases event with
  | epollWait ready =>
      unfold serverStep
      dsimp only
      split_ifs with hready
      · obtain ⟨-, hnodup, hwatched⟩ := hready
        refine .pure ⟨fun i => ?_, hinv.distinct, hinv.watched, hnodup, fun fd hfd => ?_⟩
        · exact (hinv.status i).congr rfl rfl rfl Iff.rfl (fun _ => Iff.rfl) rfl
        · obtain ⟨i, hinit, hi⟩ := hinv.watched fd (hwatched fd hfd)
          exact ⟨i, hinit, hi, .inl (hwatched fd hfd)⟩
      · exact .pure hinv
  | pipeInput fd input encoded clock =>
      unfold serverStep
      dsimp only
      split_ifs with hfd
      · exact pipeInput_meets hreg.handles hinv hfd (hevent hfd)
      · exact .pure hinv
  | pipeHangup fd opened =>
      unfold serverStep
      dsimp only
      split_ifs with hfd
      · exact pipeHangup_meets hreg.handles hinv hfd (hevent hfd)
      · exact .pure hinv
  | hello peer clock opened => exact clientmgrRefreshClient_meets hreg hinv hevent.1 hevent.2
  | request clientid nonce ip port =>
      exact .pure (hinv.recordFrame (.answerRequest s clientid nonce ip port))
  | setStream request opened =>
      exact .bind (handleClientSetstream_meets hreg hinv hevent) fun result hresult => .pure hresult
  | setVolume request =>
      exact .bind (handleClientSetvolume_meets s request) fun result hresult => .pure (hinv.recordFrame hresult)
  | fire id clock opened => exact fireTask_meets hreg.handles hinv hevent

theorem PipesInv.fresh (bufferms : UInt16) (options : Fin (n + 1) → StreamOptions) :
    PipesInv (freshServer bufferms options) where
  status := fun _ => .resting rfl (fun hinit => by cases hinit) rfl fun _ hid => by cases hid
  distinct := fun _ _ _ hinit => by cases hinit
  watched := fun _ hfd => by cases hfd
  nodup := List.nodup_nil
  pending := fun _ hfd => by cases hfd

/-- A run that nothing disturbs: `epoll` refuses no descriptor, and the pipes are served. -/
theorem serverRun_meets {s : Server n} {events : List ServerEvent} (hreg : RegistryInv s)
    (hinv : PipesInv s) (hrun : UndisturbedRun s events) :
    Meets Fault.NotRefused PipesInv (serverRun s events) := by
  induction events generalizing s with
  | nil => exact .pure hinv
  | cons event events ih =>
      obtain ⟨hevent, hrest⟩ := hrun
      refine .bind ((serverStep_meets hreg hinv hevent).and fun s' hstep =>
        And.intro hstep ((serverStep_spec hreg hstep).inv hreg)) fun s' hs' => ?_
      obtain ⟨hinv', hstep, hreg'⟩ := hs'
      exact ih hreg' hinv' (hrest s' hstep)

/-- In a run that nothing disturbs, `epoll_ctl` is never asked to add an input pipe that is watched or to
delete one that is not. -/
theorem descriptors_notRefused (bufferms : UInt16) (options : Fin (n + 1) → StreamOptions)
    (events : List ServerEvent) (hevents : UndisturbedRun (freshServer bufferms options) events)
    (fd : Nat) :
    serverRun (freshServer bufferms options) events ≠ .error (.addFd fd) ∧
      serverRun (freshServer bufferms options) events ≠ .error (.delFd fd) := by
  have hmeets := serverRun_meets (.fresh bufferms options) (.fresh bufferms options) hevents
  exact ⟨hmeets.of_error, hmeets.of_error⟩

/-- In every state of a run that nothing disturbs, a stream with a client has its input pipe watched or
a task queued that resumes reading from it. -/
theorem listeners_notStalled (bufferms : UInt16) (options : Fin (n + 1) → StreamOptions)
    (events : List ServerEvent) (hevents : UndisturbedRun (freshServer bufferms options) events)
    (s : Server n) (hrun : serverRun (freshServer bufferms options) events = .ok s)
    (i : Fin (n + 1)) (hclients : s.clients i ≠ []) :
    (s.pipe i).fd ∈ s.interest ∨
      ∃ task ∈ s.tasks.queued, task.code = .inputpipeResumeRead i := by
  have hinv := (serverRun_meets (.fresh bufferms options) (.fresh bufferms options) hevents).of_eq hrun
  cases hinv.status i with
  | reading hs hinit hw hc ht hr => exact .inl hw
  | waiting hs hinit hw hc id ht hr =>
      have hmem : id ∈ resumesOf s.tasks i := by
        rw [hr]
        exact List.mem_singleton_self id
      obtain ⟨task, htask, -, hcode⟩ := mem_resumesOf.mp hmem
      exact .inr ⟨task, htask, hcode⟩
  | resting hs hw hc hr => exact absurd hc hclients

/-- One stream with chunks of 20 bytes. -/
def oneStream (_ : Fin 1) : StreamOptions := ⟨[97], 20, 1000, 1, 1⟩

/-- Both clocks show the time in seconds. -/
def clockAt (time : Int) : ServerClock := ⟨⟨time, 0⟩, ⟨time, 0⟩⟩

/-- The only client is purged while an event of the pipe is still to be handled, and comes back. -/
def staleEvents (input : Option (List UInt8)) : List ServerEvent :=
  [helloFrom 1 100 1, .epollWait [4], .fire 0 (clockAt 6) none,
    .pipeInput 4 input (0, []) (clockAt 6), helloFrom 1 100 7]

/-- The writer closes the pipe, the only client is purged, and comes back. -/
def idleEvents : List ServerEvent :=
  [helloFrom 1 100 1, .epollWait [4], .pipeInput 4 (some []) (0, []) (clockAt 1),
    .fire 0 (clockAt 6) none, helloFrom 1 100 7]

theorem descriptors_notRefused_stale :
    serverRun (freshServer 1000 oneStream) (staleEvents none) ≠ .error (.addFd 4) ∧
      serverRun (freshServer 1000 oneStream) (staleEvents none) ≠ .error (.delFd 4) :=
  descriptors_notRefused 1000 oneStream (staleEvents none) (by decide +kernel) 4

/-- The process ends when the client comes back. -/
theorem idlePipe_refused :
    serverRun (freshServer 1000 oneStream) idleEvents = .error (.addFd 4) :=
  except_map_error (show (serverRun (freshServer 1000 oneStream) idleEvents).map (fun _ => ()) =
    .error (.addFd 4) by decide +kernel)

theorem listeners_notStalled_stale :
    ∃ s, serverRun (freshServer 1000 oneStream) (staleEvents none) = .ok s ∧ s.clients 0 ≠ [] ∧
      ((s.pipe 0).fd ∈ s.interest ∨ ∃ task ∈ s.tasks.queued, task.code = .inputpipeResumeRead 0) := by
  obtain ⟨s, hrun, hview⟩ := except_map_ok (show (serverRun (freshServer 1000 oneStream)
    (staleEvents none)).map (fun s => s.clients 0 == []) = .ok false by decide +kernel)
  have hclients : s.clients 0 ≠ [] := by simpa using hview
  exact ⟨s, hrun, hclients, listeners_notStalled 1000 oneStream (staleEvents none) (by decide +kernel)
    s hrun 0 hclients⟩

/-- The client has come back, and nothing is read for it. -/
theorem stalePipe_stalled :
    ∃ s, serverRun (freshServer 1000 oneStream) (staleEvents (some [1])) = .ok s ∧
      s.clients 0 ≠ [] ∧ (s.pipe 0).fd ∉ s.interest ∧
        ∀ task ∈ s.tasks.queued, task.code ≠ .inputpipeResumeRead 0 := by
  obtain ⟨s, hrun, hview⟩ := except_map_ok (show (serverRun (freshServer 1000 oneStream)
    (staleEvents (some [1]))).map (fun s => decide (s.clients 0 ≠ [] ∧ (s.pipe 0).fd ∉ s.interest ∧
      ∀ task ∈ s.tasks.queued, task.code ≠ .inputpipeResumeRead 0)) = .ok true by decide +kernel)
  exact ⟨s, hrun, of_decide_eq_true hview⟩

end Snapcastc
