import Snapcastc.IntercomClientMissing
import Snapcastc.IntercomServerWindow

/-! A client that goes from one stream to another. Each stream numbers its AUDIO packets on its own, and what
the client has last received is set back by CLIENT_STOP, which travels like all other datagrams: it can be
lost or overtaken. `lastreceviedseqno` is the greatest number since the last one that was executed. -/

namespace Snapcastc

open Bytes

variable {n : Nat}

/-- The last number received is the greatest of those accepted, or zero. -/
structure Greatest (last : Nat) (accepted : List UInt32) : Prop where
  bound : ∀ nonce ∈ accepted, nonce.toNat ≤ last
  attained : last = 0 ∨ ∃ nonce ∈ accepted, nonce.toNat = last

theorem Greatest.empty : Greatest 0 [] := ⟨fun _ hnonce => absurd hnonce List.not_mem_nil, .inl rfl⟩

theorem Greatest.accept {last : Nat} {accepted : List UInt32} (hgreatest : Greatest last accepted)
    (seqno : UInt32) : Greatest (max last seqno.toNat) (seqno :: accepted) where
  bound := List.forall_mem_cons.mpr
    ⟨le_max_right _ _, fun nonce hnonce => (hgreatest.bound nonce hnonce).trans (le_max_left _ _)⟩
  attained := by
    rcases le_total seqno.toNat last with hle | hle
    · rw [max_eq_left hle]
      refine hgreatest.attained.imp_right fun ⟨nonce, hnonce, heq⟩ => ?_
      exact ⟨nonce, List.mem_cons_of_mem _ hnonce, heq⟩
    · rw [max_eq_right hle]
      exact .inr ⟨seqno, List.mem_cons_self, rfl⟩

/-- A loss that is noted changes the last number at most to that of the packet. -/
theorem noteLoss_max (clock : ClientClock) (s : Client) (buffer : ReceiveBuffer) (seqno : UInt32) :
    max (noteLoss clock s buffer seqno).1.lastreceviedseqno seqno.toNat =
      max s.lastreceviedseqno seqno.toNat := by
  unfold noteLoss
  dsimp only
  split_ifs with hnext hretransmit hfar
  · rfl
  · rfl
  · rw [decide_eq_true_eq, not_lt] at hretransmit
    rw [max_self, max_eq_right hretransmit]
  · exact congrArg (max · seqno.toNat) (requestAll_same clock buffer.capacity s _).lastreceviedseqno

theorem storeAudio_max (clock : ClientClock) (s : Client) (buffer : ReceiveBuffer) (seqno : UInt32)
    (chunk : PcmChunk) : (storeAudio clock s buffer seqno chunk).lastreceviedseqno =
      max s.lastreceviedseqno seqno.toNat :=
  (raiseSeqno_record _ seqno).2.1.trans (noteLoss_max clock s buffer seqno)

/-- `intercom_handle_audio` raises the last number to that of the packet. -/
theorem handleAudio_max (env : ClientEnv) (clock : ClientClock) {s : Client} {packet : Nat → UInt8}
    (hok : (intercomHandleAudio env clock s packet).fault = none) :
    (intercomHandleAudio env clock s packet).state.lastreceviedseqno =
      max s.lastreceviedseqno (packetHdr packet).nonce.toNat := by
  rcases handleAudio_cases env clock s packet with ⟨fault, -, hrun⟩ | ⟨s₁, chunk, buffer, hensure, hrun⟩
  · rw [hrun] at hok
    cases hok
  · generalize (packetHdr packet).nonce = seqno at hensure hrun ⊢
    have hlast : s₁.lastreceviedseqno = s.lastreceviedseqno := (ensureReceivebuffer_record hensure).2.1
    rw [← hlast]
    rcases hrun with ⟨-, hrun⟩ | ⟨-, hrun⟩
    · rw [hrun]
      have hsame := sameIntercom_openDevice env clock (storeAudio clock s₁ buffer seqno chunk) chunk
      exact hsame.lastreceviedseqno.trans (storeAudio_max clock s₁ buffer seqno chunk)
    · rw [hrun]
      have hraised := (raiseSeqno_record (withReceivebuffer s₁ buffer) seqno).2.1
      exact (pruneMissingPackets_record _ seqno).2.1.trans hraised

/-- Of the server operations, a stop sets the last number back. -/
theorem executeAll_last (s : Client) (ops : List ServerOperation) :
    (ops.foldl execute s).lastreceviedseqno =
      if ServerOperation.stop ∈ ops then 0 else s.lastreceviedseqno := by
  induction ops generalizing s with
  | nil => rfl
  | cons op ops ih =>
      rw [List.foldl_cons, ih]
      cases op with
      | stop =>
          rw [if_pos List.mem_cons_self]
          exact ite_self _
      | volume percent => simp [execute, setClientVolume]

/-- A packet is dropped or leaves the numbers alone, sets them back, or adds its own. -/
theorem handlePacket_last (env : ClientEnv) (clock : ClientClock) {s : Client} {packet : Nat → UInt8}
    {packetLen : Nat} (hok : (intercomHandlePacket env clock s packet packetLen).fault = none) :
    let s' := (intercomHandlePacket env clock s packet packetLen).state
    let hdr := packetHdr packet
    (s'.lastreceviedseqno = s.lastreceviedseqno ∧ ∀ accepted, acceptedAfter s s' hdr accepted = accepted) ∨
      (s'.lastreceviedseqno = 0 ∧ hdr.type ≠ audioData ∧ ∀ accepted, acceptedAfter s s' hdr accepted = []) ∨
        (s'.lastreceviedseqno = max s.lastreceviedseqno hdr.nonce.toNat ∧ hdr.type = audioData ∧
          ∀ accepted, acceptedAfter s s' hdr accepted = hdr.nonce :: accepted) := by
  intro s' hdr
  cases hseen : intercomRecentlySeen s.recentPackets hdr with
  | true =>
      refine .inl ⟨congrArg Client.lastreceviedseqno (congrArg Outcome.state (handlePacket_of_seen hseen)), ?_⟩
      exact fun accepted => acceptedAfter_of_dropped s' accepted (by simp [hseen])
  | false =>
      by_cases hversion : hdr.version = packetFormatVersion
      · have hrecent := (noteRecent_record s hdr).2.1
        by_cases haudio : hdr.type = audioData
        · have hhandle := @handlePacket_of_audio env clock s packet packetLen ⟨hversion, haudio⟩ hseen
          rw [hhandle] at hok
          refine .inr (.inr ⟨?_, haudio, fun accepted => acceptedAfter_of_audio s' accepted hversion hseen haudio⟩)
          rw [← hrecent]
          exact (congrArg (fun outcome => outcome.state.lastreceviedseqno) hhandle).trans
            (handleAudio_max env clock hok)
        · have hafter := fun accepted => acceptedAfter_of_other s' accepted hversion hseen haudio
          by_cases htype : hdr.type = serverOperation
          · have hhandle : intercomHandlePacket env clock s packet packetLen =
                handleServerOperation (noteRecent s hdr) packet packetLen := by
              unfold intercomHandlePacket
              dsimp only
              rw [if_pos hversion, if_neg (by rw [hseen]; decide), if_pos htype]
            rw [hhandle] at hok
            obtain ⟨ops, hops⟩ := handleServerOperation_executes hok
            have hstate : s' = ops.foldl execute (noteRecent s hdr) := by
              rw [← hops, ← hhandle]
            have hlast := executeAll_last (noteRecent s hdr) ops
            rw [← hstate, hrecent] at hlast
            have hdone : s'.operations.drop s.operations.length = ops := by
              rw [hstate, executeAll_operations, noteRecent_operations, List.drop_left]
            rw [hdone] at hafter
            by_cases hstop : ServerOperation.stop ∈ ops
            · rw [if_pos hstop] at hlast
              refine .inr (.inl ⟨hlast, haudio, fun accepted => ?_⟩)
              rw [hafter, if_pos ⟨htype, hstop⟩]
            · rw [if_neg hstop] at hlast
              refine .inl ⟨hlast, fun accepted => ?_⟩
              rw [hafter, if_neg fun h => hstop h.2]
          · have hhandle : s' = noteRecent s hdr := by
              change (intercomHandlePacket env clock s packet packetLen).state = _
              unfold intercomHandlePacket
              dsimp only
              rw [if_pos hversion, if_neg (by rw [hseen]; decide), if_neg htype, if_neg haudio]
            refine .inl ⟨hhandle ▸ hrecent, fun accepted => ?_⟩
            rw [hafter, if_neg fun h => htype h.1]
      · have hhandle : s' = s := by
          change (intercomHandlePacket env clock s packet packetLen).state = _
          unfold intercomHandlePacket
          dsimp only
          rw [if_neg hversion]
        refine .inl ⟨congrArg Client.lastreceviedseqno hhandle, fun accepted => ?_⟩
        exact acceptedAfter_of_dropped s' accepted fun h => hversion h.1

/-! ### A server and a client -/

/-- The server and a client, with the datagrams between them, as seen by stream `i`. `others` are the numbers
of the AUDIO packets the client has accepted since its last number was set back and which the stream has not
sent; `heard` tells whether it has accepted one of the stream that was on time. The program keeps neither. -/
structure Listening (n : Nat) where
  server : Server n
  book : Bookkeeping
  others : List UInt32
  heard : Bool

/-- What can happen: something at the server, the arrival of any datagram that was sent to the client so far,
at any time and as often as it may be, and something of the client's own. -/
inductive ListeningEvent where
  | server (event : ServerEvent)
  | arrival (k : Nat) (stale : Nat → UInt8) (clock : ClientClock)
  | client (event : BookkeepingEvent)

/-- The datagram is an AUDIO packet that the stream has sent. -/
def SentBy (s : Server n) (i : Fin (n + 1)) (bytes : List UInt8) : Prop :=
  ∃ sent ∈ (s.streams i).history, sent.bytes = bytes

instance (s : Server n) (i : Fin (n + 1)) (bytes : List UInt8) : Decidable (SentBy s i bytes) :=
  inferInstanceAs (Decidable (∃ sent ∈ (s.streams i).history, sent.bytes = bytes))

/-- The client does not drop the AUDIO packet, and its chunk is on time. -/
def acceptsOnTime (s : Client) (clock : ClientClock) (packet : Nat → UInt8) : Bool :=
  (packetHdr packet).version == packetFormatVersion && (packetHdr packet).type == audioData &&
    !intercomRecentlySeen s.recentPackets (packetHdr packet) &&
      decide (timespecCmp (chunkGetPlayAt (some (audioChunk packet))) clock.ctime > 0)

/-- A datagram arrives at the client, whose mtu is 1500. -/
def arrive (env : ClientEnv) (i : Fin (n + 1)) (l : Listening n) (bytes : List UInt8) (stale : Nat → UInt8)
    (clock : ClientClock) : Outcome (Listening n) :=
  if l.book.connected then
    let packet := received stale 1500 bytes
    let outcome := bookkeepingStep env l.book (.datagram packet (min bytes.length 1500) clock)
    let others :=
      if SentBy l.server i bytes then l.others
      else acceptedAfter l.book.client outcome.state.client (packetHdr packet) l.others
    let heard := l.heard || decide (SentBy l.server i bytes) && acceptsOnTime l.book.client clock packet
    ⟨{ l with book := outcome.state, others, heard }, outcome.fault⟩
  else ⟨l, none⟩

/-- What happens at an event, when the client has the address `ip` and `port`. -/
def listeningStep (env : ClientEnv) (ip : In6Addr) (port : UInt16) (i : Fin (n + 1)) (l : Listening n) :
    ListeningEvent → Outcome (Listening n)
  | .server event =>
      match serverStep l.server event with
      | .ok server => ⟨{ l with server }, none⟩
      | .error fault => ⟨l, some fault⟩
  | .arrival k stale clock =>
      match l.server.sent[k]? with
      | some datagram =>
          if datagram.recipient = ip ∧ datagram.port = port then arrive env i l datagram.bytes stale clock
          else ⟨l, none⟩
      | none => ⟨l, none⟩
  | .client (.datagram ..) => ⟨l, none⟩
  | .client event =>
      let outcome := bookkeepingStep env l.book event
      ⟨{ l with book := outcome.state, others := if outcome.state.connected then l.others else [] },
        outcome.fault⟩

/-- What a sequence of events leads to, or that one of them has ended a process. -/
def listeningRun (env : ClientEnv) (ip : In6Addr) (port : UInt16) (i : Fin (n + 1)) :
    Listening n → List ListeningEvent → Outcome (Listening n)
  | l, [] => ⟨l, none⟩
  | l, event :: events =>
      match (listeningStep env ip port i l event).fault with
      | none => listeningRun env ip port i (listeningStep env ip port i l event).state events
      | some _ => listeningStep env ip port i l event

/-- The server and the client when they enter their loops. -/
def freshListening (bufferms : UInt16) (options : Fin (n + 1) → StreamOptions) (nonce : UInt32)
    (softvol : Bool) (mixer : Option Mixer) : Listening n :=
  ⟨freshServer bufferms options, ⟨freshClient nonce softvol mixer, true, []⟩, [], false⟩

/-! ### The invariant -/

/-- The numbers the client has accepted are those of other packets and of packets of the stream. -/
structure ListeningInv (i : Fin (n + 1)) (l : Listening n) : Prop where
  registry : RegistryInv l.server
  start : StartInv l.server
  window : WindowInv (l.server.audio i)
  greatest : Greatest l.book.client.lastreceviedseqno l.book.accepted
  others : ∀ nonce ∈ l.others, nonce ∈ l.book.accepted
  own : ∀ nonce ∈ l.book.accepted, nonce ∈ l.others ∨
    ∃ sent ∈ (l.server.streams i).history, sent.nonce = nonce
  heard : l.heard = true → (l.server.streams i).history ≠ []
  closed : l.book.connected = false →
    l.book.client.lastreceviedseqno = 0 ∧ l.book.accepted = [] ∧ l.others = []

theorem ListeningInv.fresh (bufferms : UInt16) (options : Fin (n + 1) → StreamOptions) (nonce : UInt32)
    (softvol : Bool) (mixer : Option Mixer) (i : Fin (n + 1)) :
    ListeningInv i (freshListening bufferms options nonce softvol mixer) where
  registry := .fresh bufferms options
  start := .fresh bufferms options
  window := .fresh bufferms options i
  greatest := .empty
  others := fun _ hnonce => absurd hnonce List.not_mem_nil
  own := fun _ hnonce => absurd hnonce List.not_mem_nil
  heard := fun hheard => by cases hheard
  closed := fun hclosed => by cases hclosed

/-- Packets are only added to what a stream has sent. -/
theorem AudioStep.history {s : Server n} {i : Fin (n + 1)} {event : ServerEvent} {audio : StreamAudio n}
    (hstep : AudioStep s i event audio) : (s.streams i).history <+: audio.history := by
  cases hstep with
  | same => exact List.prefix_refl _
  | started peer clock opened => exact List.prefix_refl _
  | kept fd input encoded clock pcm chunk id hencode => exact List.prefix_append _ _
  | removed task clock opened htask hdue => exact List.prefix_refl _

/-- The number in a packet of the stream, as the client reads it, is the one it was sent under. -/
theorem sentBy_nonce {s : Server n} {i : Fin (n + 1)} (hwindow : WindowInv (s.audio i)) {bytes : List UInt8}
    (hsent : SentBy s i bytes) (stale : Nat → UInt8) :
    (packetHdr (received stale 1500 bytes)).type = audioData ∧ ∃ sent ∈ (s.streams i).history,
      sent.nonce = (packetHdr (received stale 1500 bytes)).nonce := by
  obtain ⟨sent, hmem, rfl⟩ := hsent
  obtain ⟨chunk, hbytes⟩ := hwindow.packets sent hmem
  have hholds : Holds (received stale 1500 sent.bytes) 0 (audioHeaderBytes (s.audio i).bufferms sent.nonce) := by
    have hheader : (audioHeaderBytes (s.audio i).bufferms sent.nonce).length = 10 := rfl
    have hstored := holds_store stale 0 (sent.bytes.take 1500)
    rw [hbytes, audioBytes, List.take_append, List.take_of_length_le (by omega)] at hstored
    rw [hbytes, received, audioBytes, List.take_append, List.take_of_length_le (by omega)]
    exact hstored.left
  have hhdr := (Holds.audioHeader hholds).1
  rw [hhdr]
  exact ⟨rfl, sent, hmem, rfl⟩

theorem ListeningInv.server {i : Fin (n + 1)} {l : Listening n} (hinv : ListeningInv i l) {s' : Server n}
    {event : ServerEvent} (hstep : serverStep l.server event = .ok s') :
    ListeningInv i { l with server := s' } := by
  have haudio := serverStep_audio hinv.registry hinv.start hstep i
  have hhistory : (l.server.streams i).history <+: (s'.streams i).history := haudio.history
  refine ⟨(serverStep_spec hinv.registry hstep).inv hinv.registry, hinv.start.step hinv.registry hstep,
    hinv.window.step haudio, hinv.greatest, hinv.others, fun nonce hnonce => ?_, fun hheard hnone => ?_,
      hinv.closed⟩
  · refine (hinv.own nonce hnonce).imp_right fun ⟨sent, hsent, heq⟩ => ?_
    exact ⟨sent, hhistory.subset hsent, heq⟩
  · have hnone : (s'.streams i).history = [] := hnone
    rw [hnone] at hhistory
    exact hinv.heard hheard (List.prefix_nil.mp hhistory)

theorem ListeningInv.arrive {env : ClientEnv} {i : Fin (n + 1)} {l : Listening n} (hinv : ListeningInv i l)
    {bytes : List UInt8} {stale : Nat → UInt8} {clock : ClientClock}
    (hok : (arrive env i l bytes stale clock).fault = none) :
    ListeningInv i (arrive env i l bytes stale clock).state := by
  unfold Snapcastc.arrive bookkeepingStep at hok ⊢
  by_cases hconnected : l.book.connected = true
  · dsimp only at hok ⊢
    rw [if_pos hconnected, if_pos hconnected] at hok ⊢
    dsimp only at hok ⊢
    have hlast := handlePacket_last env clock hok
    dsimp only at hlast
    generalize hpacket : received stale 1500 bytes = packet at hok hlast ⊢
    generalize hstate : (intercomHandlePacket env clock l.book.client packet (min bytes.length 1500)).state = s'
      at hlast ⊢
    have hheard : (l.heard || decide (SentBy l.server i bytes) && acceptsOnTime l.book.client clock packet) =
        true → (l.server.streams i).history ≠ [] := by
      intro heither hnone
      rcases Bool.or_eq_true_iff.mp heither with hheard | hboth
      · exact hinv.heard hheard hnone
      · obtain ⟨sent, hsent, -⟩ := of_decide_eq_true (Bool.and_eq_true_iff.mp hboth).1
        rw [hnone] at hsent
        exact absurd hsent List.not_mem_nil
    refine ⟨hinv.registry, hinv.start, hinv.window, ?_, ?_, ?_, hheard, fun hclosed => by cases hclosed⟩
    · rcases hlast with ⟨hsame, hafter⟩ | ⟨hzero, -, hafter⟩ | ⟨hmax, -, hafter⟩
      · rw [hsame, hafter]
        exact hinv.greatest
      · rw [hzero, hafter]
        exact .empty
      · rw [hmax, hafter]
        exact hinv.greatest.accept _
    · intro nonce hnonce
      dsimp only at hnonce ⊢
      rcases hlast with ⟨-, hafter⟩ | ⟨-, htype, hafter⟩ | ⟨-, -, hafter⟩
      · rw [hafter, ite_self] at hnonce
        rw [hafter]
        exact hinv.others nonce hnonce
      · -- the packet that has stopped the client is not one of the stream
        have hnot : ¬SentBy l.server i bytes := fun hsent =>
          htype (hpacket ▸ (sentBy_nonce hinv.window hsent stale).1)
        rw [hafter, if_neg hnot] at hnonce
        exact absurd hnonce List.not_mem_nil
      · rw [hafter] at hnonce ⊢
        split_ifs at hnonce
        · exact List.mem_cons_of_mem _ (hinv.others nonce hnonce)
        · rcases List.mem_cons.mp hnonce with rfl | hnonce
          · exact List.mem_cons_self
          · exact List.mem_cons_of_mem _ (hinv.others nonce hnonce)
    · intro nonce hnonce
      dsimp only at hnonce ⊢
      rcases hlast with ⟨-, hafter⟩ | ⟨-, -, hafter⟩ | ⟨-, -, hafter⟩
      · rw [hafter] at hnonce
        rw [hafter, ite_self]
        exact hinv.own nonce hnonce
      · rw [hafter] at hnonce
        exact absurd hnonce List.not_mem_nil
      · rw [hafter] at hnonce ⊢
        rcases List.mem_cons.mp hnonce with rfl | hnonce
        · by_cases hsent : SentBy l.server i bytes
          · exact .inr (hpacket ▸ (sentBy_nonce hinv.window hsent stale).2)
          · rw [if_neg hsent]
            exact .inl List.mem_cons_self
        · refine (hinv.own nonce hnonce).imp_left fun hother => ?_
          split_ifs
          · exact hother
          · exact List.mem_cons_of_mem _ hother
  · rw [if_neg hconnected] at hok ⊢
    exact hinv

/-- What the client does on its own sets the last number back or leaves it alone. -/
theorem bookkeepingStep_own {env : ClientEnv} {b : Bookkeeping} {event : BookkeepingEvent}
    (hown : ∀ packet packetLen clock, event ≠ .datagram packet packetLen clock)
    (hok : (bookkeepingStep env b event).fault = none) :
    let b' := (bookkeepingStep env b event).state
    (b'.client.lastreceviedseqno = b.client.lastreceviedseqno ∧ b'.accepted = b.accepted ∧
        (b'.connected = false → b.connected = false)) ∨
      (b'.client.lastreceviedseqno = 0 ∧ b'.accepted = [] ∧ b'.connected = false) := by
  intro b'
  cases event with
  | datagram packet packetLen clock => exact absurd rfl (hown packet packetLen clock)
  | nextChunk => exact .inl ⟨rfl, rfl, id⟩
  | requestTask id clock => exact .inl ⟨(fireRequest_record clock b.client id).2.1, rfl, fun hclosed => hclosed⟩
  | uninit =>
      simp only [b']
      rcases bookkeepingStep_uninit hok with hstate | ⟨s', hstate, -, hlast⟩
      · rw [hstate]
        exact .inl ⟨rfl, rfl, id⟩
      · rw [hstate]
        exact .inr ⟨hlast, rfl, rfl⟩
  | reinit resolved clock =>
      simp only [b']
      rcases bookkeepingStep_reinit hok with hstate | ⟨-, s', hstate, -, hlast⟩
      · rw [hstate]
        exact .inl ⟨rfl, rfl, id⟩
      · rw [hstate]
        exact .inl ⟨hlast, rfl, fun hclosed => by cases hclosed⟩

theorem ListeningInv.own_event {env : ClientEnv} {i : Fin (n + 1)} {l : Listening n} (hinv : ListeningInv i l)
    {event : BookkeepingEvent} (hown : ∀ packet packetLen clock, event ≠ .datagram packet packetLen clock)
    (hok : (bookkeepingStep env l.book event).fault = none) :
    ListeningInv i { l with
      book := (bookkeepingStep env l.book event).state
      others := if (bookkeepingStep env l.book event).state.connected then l.others else [] } := by
  have hbook := bookkeepingStep_own hown hok
  dsimp only at hbook
  generalize (bookkeepingStep env l.book event).state = b' at hbook ⊢
  rcases hbook with ⟨hlast, haccepted, hclosed⟩ | ⟨hlast, haccepted, hclosed⟩
  · refine ⟨hinv.registry, hinv.start, hinv.window, ?_, ?_, ?_, hinv.heard, fun hnot => ?_⟩
    · rw [hlast, haccepted]
      exact hinv.greatest
    · intro nonce hnonce
      dsimp only at hnonce ⊢
      rw [haccepted]
      split_ifs at hnonce
      · exact hinv.others nonce hnonce
      · exact absurd hnonce List.not_mem_nil
    · intro nonce hnonce
      dsimp only at hnonce ⊢
      rw [haccepted] at hnonce
      by_cases hconnected : b'.connected = true
      · rw [if_pos hconnected]
        exact hinv.own nonce hnonce
      · obtain ⟨-, hnone, -⟩ := hinv.closed (hclosed (Bool.not_eq_true _ ▸ hconnected))
        rw [hnone] at hnonce
        exact absurd hnonce List.not_mem_nil
    · obtain ⟨hzero, hnone, -⟩ := hinv.closed (hclosed hnot)
      have hnot : b'.connected = false := hnot
      refine ⟨hlast.trans hzero, haccepted.trans hnone, ?_⟩
      dsimp only
      rw [if_neg (by rw [hnot]; decide)]
  · rw [if_neg (by rw [hclosed]; decide)]
    refine ⟨hinv.registry, hinv.start, hinv.window, ?_, fun _ hnonce => absurd hnonce List.not_mem_nil, ?_,
      hinv.heard, fun _ => ⟨hlast, haccepted, rfl⟩⟩
    · rw [hlast, haccepted]
      exact .empty
    · intro nonce hnonce
      dsimp only at hnonce
      rw [haccepted] at hnonce
      exact absurd hnonce List.not_mem_nil

theorem ListeningInv.step {env : ClientEnv} {ip : In6Addr} {port : UInt16} {i : Fin (n + 1)}
    {l : Listening n} (hinv : ListeningInv i l) {event : ListeningEvent}
    (hok : (listeningStep env ip port i l event).fault = none) :
    ListeningInv i (listeningStep env ip port i l event).state := by
  cases event with
  | server event =>
      unfold listeningStep at hok ⊢
      dsimp only at hok ⊢
      cases hstep : serverStep l.server event with
      | ok server => exact hinv.server hstep
      | error fault =>
          rw [hstep] at hok
          cases hok
  | arrival k stale clock =>
      unfold listeningStep at hok ⊢
      dsimp only at hok ⊢
      cases hsent : l.server.sent[k]? with
      | none => exact hinv
      | some datagram =>
          rw [hsent] at hok
          dsimp only at hok ⊢
          split_ifs at hok ⊢
          · exact hinv.arrive hok
          · exact hinv
  | client event =>
      cases event with
      | datagram packet packetLen clock => exact hinv
      | nextChunk => exact hinv.own_event (fun _ _ _ heq => by cases heq) hok
      | requestTask id clock => exact hinv.own_event (fun _ _ _ heq => by cases heq) hok
      | uninit => exact hinv.own_event (fun _ _ _ heq => by cases heq) hok
      | reinit resolved clock => exact hinv.own_event (fun _ _ _ heq => by cases heq) hok

theorem ListeningInv.run {env : ClientEnv} {ip : In6Addr} {port : UInt16} {i : Fin (n + 1)}
    {l : Listening n} (hinv : ListeningInv i l) {events : List ListeningEvent}
    (hok : (listeningRun env ip port i l events).fault = none) :
    ListeningInv i (listeningRun env ip port i l events).state := by
  induction events generalizing l with
  | nil => exact hinv
  | cons event events ih =>
      rw [listeningRun] at hok ⊢
      cases hfault : (listeningStep env ip port i l event).fault with
      | none =>
          rw [hfault] at hok
          exact ih (hinv.step hfault) hok
      | some fault =>
          rw [hfault] at hok
          dsimp only at hok
          rw [hfault] at hok
          cases hok

/-! ### Loss detection after a switch -/

/-- The number is not greater than the highest that the stream has sent. -/
def NotAbove (s : Server n) (i : Fin (n + 1)) (number : Nat) : Prop :=
  ∃ sent ∈ (s.streams i).history, number ≤ sent.nonce.toNat

/-- In every run of the server and a client, with datagrams lost, delayed, reordered and repeated: once the
client has accepted an AUDIO packet of a stream that is on time, its last number is not above those that
the stream has sent if and only if no packet of another stream is that it has accepted since it was last
stopped. -/
theorem lossDetection_alive_iff (env : ClientEnv) (ip : In6Addr) (port : UInt16) (bufferms : UInt16)
    (options : Fin (n + 1) → StreamOptions) (nonce : UInt32) (softvol : Bool) (mixer : Option Mixer)
    (i : Fin (n + 1)) (events : List ListeningEvent)
    (hok : (listeningRun env ip port i (freshListening bufferms options nonce softvol mixer) events).fault = none) :
    let l := (listeningRun env ip port i (freshListening bufferms options nonce softvol mixer) events).state
    l.heard = true → (NotAbove l.server i l.book.client.lastreceviedseqno ↔
      ∀ number ∈ l.others, NotAbove l.server i number.toNat) := by
  intro l hheard
  have hinv : ListeningInv i l := (ListeningInv.fresh bufferms options nonce softvol mixer i).run hok
  constructor
  · rintro ⟨sent, hsent, hle⟩ number hnumber
    exact ⟨sent, hsent, (hinv.greatest.bound number (hinv.others number hnumber)).trans hle⟩
  · intro hothers
    rcases hinv.greatest.attained with hzero | ⟨number, hnumber, heq⟩
    · obtain ⟨sent, hsent⟩ := List.exists_mem_of_ne_nil _ (hinv.heard hheard)
      exact ⟨sent, hsent, hzero.trans_le (Nat.zero_le _)⟩
    · rw [← heq]
      rcases hinv.own number hnumber with hother | ⟨sent, hsent, rfl⟩
      · exact hothers number hother
      · exact ⟨sent, hsent, le_rfl⟩

/-- Two streams, `a` and `b`. -/
def switchStreams (i : Fin 2) : StreamOptions := ⟨[97 + i.val.toUInt8], 20, 1000, 1, 1⟩

def pipeOffers (fd : Nat) : List ListeningEvent :=
  [.server (.epollWait [fd]), .server (.pipeInput fd (some (List.replicate 20 7)) (2, [8, 9]) (clockAt 2))]

/-- The stream `a` sends two packets, the client goes to `b`, and that sends its first one. -/
def switchEvents : List ListeningEvent :=
  [.server (helloFrom 1 100 1)] ++ pipeOffers 4 ++ pipeOffers 4 ++
    [.server (.setStream (setStreamRequest 1 [98]) (some 9))] ++ pipeOffers 9

/-- A datagram arrives in second 2. -/
def arrivalOf (k : Nat) : ListeningEvent := .arrival k (fun _ => 0) ⟨⟨2, 0⟩, ⟨2, 0⟩, ⟨2, 0⟩⟩

/-- The packet 1 of `a`, the stop and the packet 0 of `b` arrive. -/
theorem lossDetection_alive_stopped :
    let l := (listeningRun anyDevice ⟨1⟩ 100 1 (freshListening 1000 switchStreams 7 true none)
      (switchEvents ++ [arrivalOf 2, arrivalOf 3, arrivalOf 5])).state
    l.heard = true ∧ NotAbove l.server 1 l.book.client.lastreceviedseqno := by
  have hview : ∀ outcome, outcome = listeningRun anyDevice ⟨1⟩ 100 1
      (freshListening 1000 switchStreams 7 true none) (switchEvents ++ [arrivalOf 2, arrivalOf 3, arrivalOf 5]) →
        (outcome.fault.isNone, outcome.state.heard, outcome.state.others) = (true, true, []) := by
    rintro outcome rfl
    decide +kernel
  obtain ⟨hok, hview⟩ := Prod.mk.inj (hview _ rfl)
  obtain ⟨hheard, hothers⟩ := Prod.mk.inj hview
  refine ⟨hheard, (lossDetection_alive_iff anyDevice ⟨1⟩ 100 1000 switchStreams 7 true none 1
    (switchEvents ++ [arrivalOf 2, arrivalOf 3, arrivalOf 5]) (Option.isNone_iff_eq_none.mp hok) hheard).mpr ?_⟩
  rw [hothers]
  exact fun number hnumber => absurd hnumber List.not_mem_nil

/-- The stop is lost: the client takes packet 0 of `b` for one that was sent again. -/
theorem lossDetection_dead :
    ¬∀ events : List ListeningEvent,
      (listeningRun anyDevice ⟨1⟩ 100 1 (freshListening 1000 switchStreams 7 true none) events).fault = none →
        let l := (listeningRun anyDevice ⟨1⟩ 100 1 (freshListening 1000 switchStreams 7 true none) events).state
        l.heard = true → NotAbove l.server 1 l.book.client.lastreceviedseqno := by
  intro hall
  have hview : ∀ outcome, outcome = listeningRun anyDevice ⟨1⟩ 100 1
      (freshListening 1000 switchStreams 7 true none) (switchEvents ++ [arrivalOf 2, arrivalOf 5]) →
        (outcome.fault.isNone, outcome.state.heard, outcome.state.book.client.lastreceviedseqno,
          (outcome.state.server.streams 1).history.map SentAudio.nonce) = (true, true, 1, [0]) := by
    rintro outcome rfl
    decide +kernel
  obtain ⟨hok, hview⟩ := Prod.mk.inj (hview _ rfl)
  obtain ⟨hheard, hview⟩ := Prod.mk.inj hview
  obtain ⟨hlast, hnonces⟩ := Prod.mk.inj hview
  obtain ⟨sent, hsent, hle⟩ := hall (switchEvents ++ [arrivalOf 2, arrivalOf 5])
    (Option.isNone_iff_eq_none.mp hok) hheard
  have hnonce := List.mem_map_of_mem (f := SentAudio.nonce) hsent
  rw [hnonces, List.mem_singleton] at hnonce
  rw [hlast, hnonce] at hle
  exact absurd hle (by decide)

end Snapcastc
