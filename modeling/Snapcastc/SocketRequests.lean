import Snapcastc.Clientmgr

/-! The requests of the control protocol that change something (`socket.c`): Client.SetStream and
Client.SetVolume. The JSON library is third-party code; a request is what `jsonrpc_parse_string` has
made of a line. -/

namespace Snapcastc

variable {n : Nat}

/-- A volume object, by what `json_object_object_get_ex` finds in it: whether a member is there, and its
value unless that is `null`. -/
structure VolumeObject where
  percent : Option (Option Int)
  muted : Option (Option Bool)
  deriving DecidableEq, Repr

/-- `parameter`. Its value is a union: `number`, `string` and `jsonString` are what the members read as,
the last one by what `json_tokener_parse` makes of it. -/
structure Parameter where
  name : List UInt8
  number : Int
  string : List UInt8
  jsonString : Option VolumeObject

/-- `jsonrpc_request`, less the method. -/
structure JsonrpcRequest where
  id : Int
  parameters : List Parameter

def nameId : List UInt8 := [105, 100]

def nameStreamId : List UInt8 := [115, 116, 114, 101, 97, 109, 95, 105, 100]

def nameVolume : List UInt8 := [118, 111, 108, 117, 109, 101]

/-- The test for a parameter's name, which may be longer. -/
def Parameter.named (p : Parameter) (name : List UInt8) : Bool := strncmp p.name name name.length == 0

/-- Names that a parameter is taken for begin with the same letter. -/
theorem named_head {p : Parameter} {a b : UInt8} {as bs : List UInt8}
    (hfirst : p.named (a :: as) = true) (hsecond : p.named (b :: bs) = true) : a = b := by
  have hhead : ∀ {a : UInt8} {as : List UInt8}, p.named (a :: as) = true → p.name.head? = some a := by
    intro a as hnamed
    unfold Parameter.named at hnamed
    cases hname : p.name with
    | nil =>
        rw [hname] at hnamed
        cases hnamed
    | cons c rest =>
        rw [hname, List.length_cons, strncmp] at hnamed
        split_ifs at hnamed with hc
        · rw [hc]
          rfl
        · cases hnamed
        · cases hnamed
  exact Option.some.inj ((hhead hfirst).symm.trans (hhead hsecond))

/-- The number of an id is taken for the id. -/
theorem ofInt_toNat (id : UInt16) : UInt16.ofInt id.toNat = id := by
  have hlt := id.toNat_lt
  have hmod : (id.toNat : Int) % 2 ^ 16 = id.toNat := Int.emod_eq_of_lt (by omega) (by omega)
  rw [UInt16.ofInt, hmod, Int.toNat_natCast, UInt16.ofNat_toNat]

/-- The loop of `handle_client_setstream` over the parameters, the last one first: the client and the
stream it finds. It stops at a client or a stream that is not known. -/
def setstreamLoop (s : Server n) :
    List Parameter → Option (Fin (n + 1) × Nat) → Option (Fin (n + 1)) →
      Option (Fin (n + 1) × Nat) × Option (Fin (n + 1))
  | [], client, newstream => (client, newstream)
  | p :: parameters, client, newstream =>
      if p.named nameId then
        match findClient s (UInt16.ofInt p.number) with
        | none => (none, newstream)
        | some found => setstreamLoop s parameters (some found) newstream
      else if p.named nameStreamId then
        match streamFindName s p.string with
        | none => (client, none)
        | some found => setstreamLoop s parameters client (some found)
      else setstreamLoop s parameters client newstream

def clientStreamIsChanged (s : Server n) (currentStream newstream : Fin (n + 1)) : Bool :=
  strncmp (s.streams currentStream).name (s.streams newstream).name
    (s.streams currentStream).name.length != 0

/-- The result of Client.SetStream: the stream and the client. -/
structure SetstreamReply where
  stream : List UInt8
  client : UInt16
  deriving DecidableEq, Repr

/-- The part of `handle_client_setstream` that moves the client at a position to another stream. -/
def changeStream (opened : Option Nat) (s : Server n) (client : ClientRecord)
    (currentStream : Fin (n + 1)) (k : Nat) (newstream : Fin (n + 1)) : Except Fault (Server n) :=
  if clientStreamIsChanged s currentStream newstream then do
    let s ← streamClientAdd opened (intercomStopClientOf s client) newstream client
    streamClientRemove s currentStream k
  else pure s

/-- What `handle_client_setstream` does with a client and a stream. The client is read once more for the
reply; where it was is then the next client, or still its own record if it was the last one. -/
def moveClient (opened : Option Nat) (s : Server n) (i : Fin (n + 1)) (k : Nat)
    (newstream : Fin (n + 1)) : Except Fault (Server n × SetstreamReply) :=
  match s.clientAt i k with
  | none => throw .nullPointer
  | some client =>
      match streamFind s client.id with
      | none => throw .nullPointer
      | some currentStream => do
          let s ← changeStream opened s client currentStream k newstream
          pure (s, ⟨(s.streams newstream).name, ((s.clientAt i k).getD client).id⟩)

def handleClientSetstream (opened : Option Nat) (s : Server n) (request : JsonrpcRequest) :
    Except Fault (Server n × Option SetstreamReply) :=
  match setstreamLoop s request.parameters.reverse none none with
  | (some (i, k), some newstream) => do
      let (s, reply) ← moveClient opened s i k newstream
      pure (s, some reply)
  | _ => pure (s, none)

/-! ### Client.SetVolume -/

/-- What the loop of `handle_client_setvolume` has found: the client, the volume and the mute flag, the
last two unless the pointer to the member is `NULL`. -/
structure SetvolumeFound (n : Nat) where
  client : Option (Fin (n + 1) × Nat)
  volPercent : Option Int
  mute : Option Bool

/-- How the loop of `handle_client_setvolume` ends: at its end, or with the jump to the reply. -/
inductive SetvolumeExit where
  | apply
  | reply
  deriving DecidableEq, Repr

/-- The volume and the mute flag that the loop reads from a volume object, or `none` for the jump to the
reply. The mute flag is not looked for when the volume is there; a pointer left over from another
object is then followed though that object was freed. -/
def readVolume (found : SetvolumeFound n) (object : VolumeObject) :
    Except Fault (Option (SetvolumeFound n)) :=
  match object.percent with
  | some percent =>
      if found.mute.isSome then throw .useAfterFree
      else pure (some { found with volPercent := percent })
  | none =>
      match object.muted with
      | some muted => pure (some { found with volPercent := none, mute := muted })
      | none => pure none

/-- The loop of `handle_client_setvolume` over the parameters, the last one first. -/
def setvolumeLoop (s : Server n) :
    List Parameter → SetvolumeFound n → Except Fault (SetvolumeFound n × SetvolumeExit)
  | [], found => pure (found, .apply)
  | p :: parameters, found =>
      if p.named nameId then
        match findClient s (UInt16.ofInt p.number) with
        | none => pure ({ found with client := none }, .apply)
        | some client => setvolumeLoop s parameters { found with client := some client }
      else if p.named nameVolume then
        match p.jsonString with
        | none => pure (found, .reply)
        | some object => do
            match ← readVolume found object with
            | none => pure (found, .reply)
            | some found => setvolumeLoop s parameters found
      else setvolumeLoop s parameters found

/-- The part of `handle_client_setvolume` that changes the volume of the client at a position. -/
def applyVolume (s : Server n) (i : Fin (n + 1)) (k : Nat) : Option Int → Except Fault (Server n)
  | none => pure s
  | some volume =>
      match s.clientAt i k with
      | none => throw .nullPointer
      | some client =>
          pure ((clientmgrClientRefreshvolume s client (UInt8.ofInt volume)).setClient i k
            { client with volumePercent := UInt8.ofInt volume })

/-- The part of `handle_client_setvolume` that mutes the client at a position or not. -/
def applyMute (s : Server n) (i : Fin (n + 1)) (k : Nat) : Option Bool → Except Fault (Server n)
  | none => pure s
  | some mute => clientmgrClientSetmute s i k mute

/-- The part of `handle_client_setvolume` between the loop and the reply. -/
def applySetvolume (s : Server n) (found : SetvolumeFound n) : SetvolumeExit → Except Fault (Server n)
  | .reply => pure s
  | .apply =>
      match found.client with
      | none => pure s
      | some (i, k) => do
          let s ← applyVolume s i k found.volPercent
          applyMute s i k found.mute

/-- The result of Client.SetVolume. -/
structure VolumeReply where
  muted : Bool
  percent : UInt8
  deriving DecidableEq, Repr

/-- The reply of `handle_client_setvolume`, for the client it has found. -/
def volumeReply (s : Server n) (client : Option (Fin (n + 1) × Nat)) : Option VolumeReply :=
  client.bind fun (i, k) => (s.clientAt i k).map fun client => ⟨client.muted, client.volumePercent⟩

def handleClientSetvolume (s : Server n) (request : JsonrpcRequest) :
    Except Fault (Server n × Option VolumeReply) := do
  let (found, jump) ← setvolumeLoop s request.parameters.reverse ⟨none, none, none⟩
  let s ← applySetvolume s found jump
  pure (s, volumeReply s found.client)

end Snapcastc
