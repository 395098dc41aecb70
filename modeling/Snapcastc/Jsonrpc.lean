import Snapcastc.SocketSetvolume

/-! How a line of the control protocol becomes a request (`jsonrpc.c`) and reaches its handler
(`handle_line` and `handle_request` in `socket.c`). The value of a parameter is kept in a union, next to
its JSON type; the handlers read a member of that union without a look at the type. The JSON library
(json-c) is third-party code and a parameter here. -/

namespace Snapcastc

variable {n : Nat}

/-- `enum json_type`. -/
inductive JsonType where
  | null
  | boolean
  | double
  | int
  | object
  | array
  | string
  deriving DecidableEq, Repr

/-- `json_object`; `null` is the pointer `NULL`, and a double is its text. -/
inductive JsonValue where
  | null
  | boolean (value : Bool)
  | double (text : List UInt8)
  | int (value : Int)
  | object (members : List (List UInt8 × JsonValue))
  | array (elements : List JsonValue)
  | string (bytes : List UInt8)

/-- `json_object_get_type`. -/
def JsonValue.type : JsonValue → JsonType
  | .null => .null
  | .boolean _ => .boolean
  | .double _ => .double
  | .int _ => .int
  | .object _ => .object
  | .array _ => .array
  | .string _ => .string

def JsonValue.objectGetEx (value : JsonValue) (key : List UInt8) : Option JsonValue :=
  match value with
  | .object members => (members.find? fun entry => entry.1 == key).map Prod.snd
  | _ => none

/-- The functions of json-c that the server uses: `json_tokener_parse`,
`json_object_to_json_string_ext` without flags, `json_object_to_json_string`, and the reads of an `int`,
a `bool` and a string, which convert what is of another type. -/
structure JsonC where
  tokenerParse : List UInt8 → Option JsonValue
  toJsonStringExt : JsonValue → List UInt8
  toJsonString : JsonValue → List UInt8
  getInt : JsonValue → Int
  getBoolean : JsonValue → Bool
  getString : JsonValue → List UInt8

/-- `'"'`. -/
def quotationMark : UInt8 := 34

/-- A text between quotation marks. -/
def quoted (body : List UInt8) : List UInt8 := quotationMark :: (body ++ [quotationMark])

def literal (text : String) : List UInt8 := text.toList.map fun c => UInt8.ofNat c.toNat

/-- The value of a parameter, by the member of the union that was written. -/
inductive UnionValue where
  | unwritten
  | string (bytes : List UInt8)
  | number (value : Int)
  | dnumber (text : List UInt8)
  | bvalue (value : Bool)
  | jsonString (text : List UInt8)

inductive UnionMember where
  | string
  | number
  | dnumber
  | bvalue
  | jsonString
  deriving DecidableEq, Repr

/-- The member that `jsonrpc_parse_string` writes for a type. -/
def JsonType.member : JsonType → Option UnionMember
  | .null => none
  | .boolean => some .bvalue
  | .double => some .dnumber
  | .int => some .number
  | .object => some .jsonString
  | .array => none
  | .string => some .string

/-- `parameter`, with its type. -/
structure TypedParameter where
  type : JsonType
  name : List UInt8
  value : UnionValue

/-- `jsonrpc_request`, as `jsonrpc_parse_string` leaves it. -/
structure ParsedRequest where
  id : Int
  method : List UInt8
  parameters : List TypedParameter

/-- `strcopy_from_json`, for the text of a value. The length is an `int`. There is no memory for a negative
one, and for a text of one byte `strncpy` is to write as many bytes as a `size_t` can count. -/
def strcopyFromJson (text : List UInt8) : Except Fault (List UInt8) :=
  let len := (text.length : Int).bmod (2 ^ 32)
  if len < 1 then throw (.exitError "malloc")
  else if len = 1 then throw .outOfBounds
  else pure ((text.drop 1).take (len - 2).toNat)

/-- The value that `jsonrpc_parse_string` stores for a parameter. -/
def unionValue (jc : JsonC) : JsonValue → UnionValue
  | .null => .unwritten
  | .boolean value => .bvalue (jc.getBoolean (.boolean value))
  | .double text => .dnumber text
  | .int value => .number (jc.getInt (.int value))
  | .object members => .jsonString (jc.toJsonString (.object members))
  | .array _ => .unwritten
  | .string bytes => .string (jc.getString (.string bytes))

/-- One round of the loop of `jsonrpc_parse_string` over the parameters. -/
def parseParameter (jc : JsonC) (entry : List UInt8 × JsonValue) : TypedParameter :=
  ⟨entry.2.type, entry.1, unionValue jc entry.2⟩

/-- The part of `jsonrpc_parse_string` up to the check of the version: the JSON object and its method. A
method that is missing has the version put that went with the object. -/
def requestHead (jc : JsonC) (line : List UInt8) : Except Fault (Option (JsonValue × JsonValue)) :=
  if line.isEmpty then pure none
  else
    match jc.tokenerParse line with
    | none => pure none
    | some jobj =>
        match jobj.objectGetEx (literal "jsonrpc") with
        | none => pure none
        | some jsonrpc =>
            match jobj.objectGetEx (literal "method") with
            | none => if jsonrpc.type = .null then pure none else throw .useAfterFree
            | some method =>
                if strncmp (literal "\"2.0\"") (jc.toJsonStringExt jsonrpc) 5 ≠ 0 then pure none
                else pure (some (jobj, method))

/-- The part of `jsonrpc_parse_string` after the method was copied. Parameters that are no object are
put once more after the object that holds them. -/
def parseParams (jc : JsonC) (jobj : JsonValue) (method : List UInt8) :
    Except Fault (Option ParsedRequest) :=
  let id := ((jobj.objectGetEx nameId).map jc.getInt).getD 0
  match jobj.objectGetEx (literal "params") with
  | none => pure (some ⟨id, method, []⟩)
  | some (.object members) => pure (some ⟨id, method, members.map (parseParameter jc)⟩)
  | some .null => pure none
  | some _ => throw .useAfterFree

def jsonrpcParseString (jc : JsonC) (line : List UInt8) : Except Fault (Option ParsedRequest) := do
  match ← requestHead jc line with
  | none => pure none
  | some (jobj, method) =>
      let method ← strcopyFromJson (jc.toJsonStringExt method)
      parseParams jc jobj method

/-- What the members of a parameter's union read as when another one was written, or none. -/
structure UnionView where
  string : TypedParameter → List UInt8
  number : TypedParameter → Int
  jsonString : TypedParameter → List UInt8

/-- `p->value.string`. -/
def TypedParameter.readString (view : UnionView) (p : TypedParameter) : List UInt8 :=
  match p.value with
  | .string bytes => bytes
  | _ => view.string p

/-- `p->value.number`. -/
def TypedParameter.readNumber (view : UnionView) (p : TypedParameter) : Int :=
  match p.value with
  | .number value => value
  | _ => view.number p

/-- `p->value.json_string`. -/
def TypedParameter.readJsonString (view : UnionView) (p : TypedParameter) : List UInt8 :=
  match p.value with
  | .jsonString text => text
  | _ => view.jsonString p

/-- A volume object as `handle_client_setvolume` reads it. -/
def volumeObject (jc : JsonC) (jobj : JsonValue) : VolumeObject where
  percent := (jobj.objectGetEx (literal "percent")).map fun value =>
    if value.type = .null then none else some (jc.getInt value)
  muted := (jobj.objectGetEx (literal "muted")).map fun value =>
    if value.type = .null then none else some (jc.getBoolean value)

/-- A parameter as the handlers read it. -/
def TypedParameter.parameter (jc : JsonC) (view : UnionView) (p : TypedParameter) : Parameter where
  name := p.name
  number := p.readNumber view
  string := p.readString view
  jsonString := (jc.tokenerParse (p.readJsonString view)).map (volumeObject jc)

/-- A request as the handlers read it. -/
def ParsedRequest.request (jc : JsonC) (view : UnionView) (request : ParsedRequest) : JsonrpcRequest :=
  ⟨request.id, request.parameters.map (TypedParameter.parameter jc view)⟩

/-- The methods `handle_request` knows. -/
inductive RpcMethod where
  | getRPCVersion
  | setStream
  | setVolume
  | getStatus
  deriving DecidableEq, Repr

/-- The choice of `handle_request`. A method's name may be longer. -/
def rpcMethod (method : List UInt8) : Option RpcMethod :=
  if strncmp method (literal "Server.GetRPCVersion") 20 = 0 then some .getRPCVersion
  else if strncmp method (literal "Client.SetStream") 16 = 0 then some .setStream
  else if strncmp method (literal "Client.SetVolume") 16 = 0 then some .setVolume
  else if strncmp method (literal "Server.GetStatus") 16 = 0 then some .getStatus
  else none

/-- The result that a handler prints. -/
inductive RpcResult where
  | rpcVersion
  | stream (reply : Option SetstreamReply)
  | volume (reply : Option VolumeReply)
  | status
  deriving DecidableEq, Repr

structure RpcResponse where
  id : Int
  result : RpcResult
  deriving DecidableEq, Repr

def handleRequest (opened : Option Nat) (s : Server n) (method : List UInt8)
    (request : JsonrpcRequest) : Except Fault (Server n × Option RpcResponse) :=
  match rpcMethod method with
  | some .getRPCVersion => pure (s, some ⟨request.id, .rpcVersion⟩)
  | some .setStream => do
      let (s, reply) ← handleClientSetstream opened s request
      pure (s, some ⟨request.id, .stream reply⟩)
  | some .setVolume => do
      let (s, reply) ← handleClientSetvolume s request
      pure (s, some ⟨request.id, .volume reply⟩)
  | some .getStatus => pure (s, some ⟨request.id, .status⟩)
  | none => pure (s, none)

def handleLine (opened : Option Nat) (jc : JsonC) (view : UnionView) (s : Server n)
    (line : List UInt8) : Except Fault (Server n × Option RpcResponse) := do
  match ← jsonrpcParseString jc line with
  | none => pure (s, none)
  | some parsed => handleRequest opened s parsed.method (parsed.request jc view)

/-- The test for a parameter's name. -/
def takenFor (name expected : List UInt8) : Bool := strncmp name expected expected.length == 0

/-- The reads of unions in the loop of `handle_client_setstream`. -/
def setstreamReads (view : UnionView) (s : Server n) :
    List TypedParameter → List (TypedParameter × UnionMember)
  | [] => []
  | p :: parameters =>
      if takenFor p.name nameId then
        (p, .number) ::
          if (findClient s (UInt16.ofInt (p.readNumber view))).isSome then setstreamReads view s parameters
          else []
      else if takenFor p.name nameStreamId then
        (p, .string) ::
          if (streamFindName s (p.readString view)).isSome then setstreamReads view s parameters else []
      else setstreamReads view s parameters

/-- Whether the pointer to the mute flag is set after a volume object, or `none` if the loop ends there. -/
def muteAfter (mute : Bool) (object : VolumeObject) : Option Bool :=
  match object.percent with
  | some _ => if mute then none else some false
  | none => object.muted.map Option.isSome

/-- The reads of unions in the loop of `handle_client_setvolume`; `mute` tells whether the pointer to the
mute flag is set. -/
def setvolumeReads (jc : JsonC) (view : UnionView) (s : Server n) :
    List TypedParameter → Bool → List (TypedParameter × UnionMember)
  | [], _ => []
  | p :: parameters, mute =>
      if takenFor p.name nameId then
        (p, .number) ::
          if (findClient s (UInt16.ofInt (p.readNumber view))).isSome then
            setvolumeReads jc view s parameters mute
          else []
      else if takenFor p.name nameVolume then
        (p, .jsonString) ::
          match ((jc.tokenerParse (p.readJsonString view)).map (volumeObject jc)).bind (muteAfter mute) with
          | none => []
          | some mute => setvolumeReads jc view s parameters mute
      else setvolumeReads jc view s parameters mute

def requestReads (jc : JsonC) (view : UnionView) (s : Server n) (parsed : ParsedRequest) :
    List (TypedParameter × UnionMember) :=
  match rpcMethod parsed.method with
  | some .setStream => setstreamReads view s parsed.parameters.reverse
  | some .setVolume => setvolumeReads jc view s parsed.parameters.reverse false
  | _ => []

/-- A read through the member that the parameter's type has written. -/
def OwnMember (read : TypedParameter × UnionMember) : Prop := read.1.type.member = some read.2

/-! ### Members and methods of the wrong type -/

def expectedType (method : Option RpcMethod) (name : List UInt8) : Option JsonType :=
  match method with
  | some .setStream =>
      if takenFor name nameId then some .int
      else if takenFor name nameStreamId then some .string
      else none
  | some .setVolume =>
      if takenFor name nameId then some .int
      else if takenFor name nameVolume then some .object
      else none
  | _ => none

/-- A parameter has the type that the method expects, if it expects one. -/
def RightType (method : Option RpcMethod) (entry : List UInt8 × JsonValue) : Prop :=
  ∀ type ∈ expectedType method entry.1, entry.2.type = type

/-- The members of a volume object have their types, an int and a boolean. -/
def RightVolume (value : JsonValue) : Prop :=
  (∀ percent ∈ value.objectGetEx (literal "percent"), percent.type = .int) ∧
    ∀ muted ∈ value.objectGetEx (literal "muted"), muted.type = .boolean

/-- A parameter has the expected type and, where this is an object, members of the expected types. -/
def RightMember (method : Option RpcMethod) (entry : List UInt8 × JsonValue) : Prop :=
  RightType method entry ∧ (expectedType method entry.1 = some .object → RightVolume entry.2)

/-- The members of a request that have another type than they should. -/
inductive WrongMember (jc : JsonC) (jobj method : JsonValue) : Prop where
  | method (hmethod : method.type ≠ .string)
  | params (params : JsonValue) (hparams : jobj.objectGetEx (literal "params") = some params)
      (hobject : params.type ≠ .object)
  | parameter (body : List UInt8) (members : List (List UInt8 × JsonValue))
      (hbody : jc.toJsonStringExt method = quoted body)
      (hparams : jobj.objectGetEx (literal "params") = some (.object members))
      (hwrong : ∃ entry ∈ members, ¬RightMember (rpcMethod body) entry)

/-- JSON values are used at their own type. The method is the text between the quotation marks of a
string, every read of a union is through the member that was written, and a line with a member of the
wrong type is handled and leaves the server as it was. -/
structure OwnTypes (opened : Option Nat) (jc : JsonC) (view : UnionView) (s : Server n)
    (line : List UInt8) : Prop where
  method : ∀ jobj method, requestHead jc line = .ok (some (jobj, method)) → ∃ bytes body,
    method = .string bytes ∧ jc.toJsonStringExt method = quoted body ∧
      strcopyFromJson (jc.toJsonStringExt method) = .ok body
  union : ∀ parsed, jsonrpcParseString jc line = .ok (some parsed) →
    ∀ read ∈ requestReads jc view s parsed, OwnMember read
  unchanged : ∀ jobj method, requestHead jc line = .ok (some (jobj, method)) →
    WrongMember jc jobj method → ∃ response, handleLine opened jc view s line = .ok (s, response)

/-- A line is a request of JSON-RPC 2.0, with a method. -/
structure IsRequest (jc : JsonC) (line : List UInt8) (jobj method : JsonValue) : Prop where
  nonempty : line ≠ []
  parsed : jc.tokenerParse line = some jobj
  version : ∃ jsonrpc, jobj.objectGetEx (literal "jsonrpc") = some jsonrpc ∧
    strncmp (literal "\"2.0\"") (jc.toJsonStringExt jsonrpc) 5 = 0
  method : jobj.objectGetEx (literal "method") = some method

/-- The parameters of Client.SetStream, the last one first, have the expected types as far as the first
one that names an unknown client or stream. -/
def SetstreamFits (jc : JsonC) (s : Server n) : List (List UInt8 × JsonValue) → Prop
  | [] => True
  | (name, value) :: params =>
      if takenFor name nameId then
        value.type = .int ∧
          ((findClient s (UInt16.ofInt (jc.getInt value))).isSome → SetstreamFits jc s params)
      else if takenFor name nameStreamId then
        value.type = .string ∧
          ((streamFindName s (jc.getString value)).isSome → SetstreamFits jc s params)
      else SetstreamFits jc s params

/-- The mute flag that is read from a volume object: none if it has a percent. -/
def VolumeObject.mute (object : VolumeObject) : Option Bool :=
  if object.percent.isSome then none else object.muted.join

/-- A volume object sets nothing, or a mute flag to false that is false already. -/
def SetsNothing (s : Server n) (target : Fin (n + 1) × Nat) (object : VolumeObject) : Prop :=
  object.percent.join = none ∧ ∀ mute ∈ object.mute,
    mute = false ∧ ∃ client, s.clientAt target.1 target.2 = some client ∧ client.muted = false

/-- The parameters of Client.SetVolume, the last one first, have the expected types as far as the first
one that names an unknown client or has nothing to set. If all are read although some member of the request is
`wrong`, then the volume object that was read last sets nothing at the client that was. With a volume after a
mute flag the loop follows a member that was freed, so then nothing may be wrong. -/
def SetvolumeFits (jc : JsonC) (s : Server n) (wrong : Prop) :
    List (List UInt8 × JsonValue) → Option (Fin (n + 1) × Nat) → Option VolumeObject → Prop
  | [], client, volume => wrong → ∀ target ∈ client, ∀ object ∈ volume, SetsNothing s target object
  | (name, value) :: params, client, volume =>
      if takenFor name nameId then
        value.type = .int ∧ ∀ target ∈ findClient s (UInt16.ofInt (jc.getInt value)),
          SetvolumeFits jc s wrong params (some target) volume
      else if takenFor name nameVolume then
        value.type = .object ∧
          ∀ object ∈ (jc.tokenerParse (jc.toJsonString value)).map (volumeObject jc),
            match object.percent, object.muted with
            | some _, _ =>
                if (volume.bind VolumeObject.mute).isSome then ¬wrong
                else SetvolumeFits jc s wrong params client (some object)
            | none, some _ => SetvolumeFits jc s wrong params client (some object)
            | none, none => True
      else SetvolumeFits jc s wrong params client volume

def ParamsFit (jc : JsonC) (s : Server n) (method : Option RpcMethod) : Option JsonValue → Prop
  | none => True
  | some .null => True
  | some (.object members) =>
      match method with
      | some .setStream => SetstreamFits jc s members.reverse
      | some .setVolume =>
          SetvolumeFits jc s (∃ entry ∈ members, ¬RightMember (some .setVolume) entry) members.reverse none none
      | _ => True
  | some _ => False

/-- If a line is a request then its method is a string, with a text whose length is an `int`, and its
parameters fit. -/
def MembersFit (jc : JsonC) (s : Server n) (line : List UInt8) : Prop :=
  ∀ jobj method, IsRequest jc line jobj method → ∃ bytes body,
    method = .string bytes ∧ jc.toJsonStringExt method = quoted body ∧ body.length + 2 < 2 ^ 31 ∧
      ParamsFit jc s (rpcMethod body) (jobj.objectGetEx (literal "params"))

theorem requestHead_iff {jc : JsonC} {line : List UInt8} {jobj method : JsonValue} :
    requestHead jc line = .ok (some (jobj, method)) ↔ IsRequest jc line jobj method := by
  unfold requestHead
  constructor
  · intro hhead
    split_ifs at hhead with hempty
    · cases hhead
    cases hparse : jc.tokenerParse line with
    | none =>
        rw [hparse] at hhead
        cases hhead
    | some parsed =>
        rw [hparse] at hhead
        dsimp only at hhead
        cases hversion : parsed.objectGetEx (literal "jsonrpc") with
        | none =>
            rw [hversion] at hhead
            cases hhead
        | some jsonrpc =>
            rw [hversion] at hhead
            dsimp only at hhead
            cases hmethod : parsed.objectGetEx (literal "method") with
            | none =>
                rw [hmethod] at hhead
                dsimp only at hhead
                split_ifs at hhead
                cases hhead
            | some found =>
                rw [hmethod] at hhead
                dsimp only at hhead
                split_ifs at hhead with hother
                · cases hhead
                · cases hhead
                  exact ⟨fun hnil => hempty (List.isEmpty_iff.mpr hnil), hparse,
                    ⟨jsonrpc, hversion, not_not.mp hother⟩, hmethod⟩
  · rintro ⟨hnonempty, hparse, ⟨jsonrpc, hversion, htwo⟩, hmethod⟩
    rw [if_neg (fun hempty => hnonempty (List.isEmpty_iff.mp hempty)), hparse]
    dsimp only
    rw [hversion]
    dsimp only
    rw [hmethod]
    dsimp only
    rw [if_neg (not_not.mpr htwo)]
    rfl

theorem quoted_injective {body other : List UInt8} (hquoted : quoted body = quoted other) :
    body = other :=
  List.append_cancel_right (List.cons.inj hquoted).2

/-- What stands between quotation marks is copied if the length is an `int`. -/
theorem strcopyFromJson_quoted {body : List UInt8} :
    strcopyFromJson (quoted body) = .ok body ↔ body.length + 2 < 2 ^ 31 := by
  have hlength : (quoted body).length = body.length + 2 := by
    rw [quoted, List.length_cons, List.length_append, List.length_singleton]
  have hdrop : (quoted body).drop 1 = body ++ [quotationMark] := rfl
  unfold strcopyFromJson
  rw [hlength, hdrop]
  obtain ⟨len, hlen⟩ : ∃ len, len = ((body.length + 2 : Nat) : Int).bmod (2 ^ 32) := ⟨_, rfl⟩
  have hsmall : len < 2 ^ 31 := by
    have hlt := @Int.bmod_lt ((body.length + 2 : Nat) : Int) (2 ^ 32) (by decide)
    omega
  rw [← hlen]
  dsimp only
  constructor
  · intro hcopy
    by_cases hnegative : len < 1
    · rw [if_pos hnegative] at hcopy
      cases hcopy
    by_cases hone : len = 1
    · rw [if_neg hnegative, if_pos hone] at hcopy
      cases hcopy
    rw [if_neg hnegative, if_neg hone] at hcopy
    have htake : (body ++ [quotationMark]).take (len - 2).toNat = body := Except.ok.inj hcopy
    have hcount := congrArg List.length htake
    rw [List.length_take, List.length_append, List.length_singleton] at hcount
    omega
  · intro hrange
    have hexact : len = body.length + 2 := by
      rw [hlen, Int.bmod_eq_of_le (by omega) (by omega)]
      rfl
    rw [if_neg (by omega), if_neg (by omega), show (len - 2).toNat = body.length by omega,
      List.take_left]
    rfl

/-- How a request is parsed once its method was copied. -/
theorem jsonrpcParseString_of_head {jc : JsonC} {line : List UInt8} {jobj method : JsonValue}
    {body : List UInt8} (hhead : requestHead jc line = .ok (some (jobj, method)))
    (hcopy : strcopyFromJson (jc.toJsonStringExt method) = .ok body) :
    jsonrpcParseString jc line = parseParams jc jobj body := by
  unfold jsonrpcParseString
  rw [hhead, except_ok_bind]
  dsimp only
  rw [hcopy, except_ok_bind]

/-! ### The loops -/

section Loops

variable {jc : JsonC} {view : UnionView} {s : Server n}

def readParameters (jc : JsonC) (view : UnionView) (params : List (List UInt8 × JsonValue)) :
    List Parameter :=
  params.map fun entry => (parseParameter jc entry).parameter jc view

theorem readNumber_int {name : List UInt8} {value : JsonValue} (hint : value.type = .int) :
    (parseParameter jc (name, value)).readNumber view = jc.getInt value := by
  cases value with
  | int value => rfl
  | _ => cases hint

theorem readString_string {name : List UInt8} {value : JsonValue} (hstring : value.type = .string) :
    (parseParameter jc (name, value)).readString view = jc.getString value := by
  cases value with
  | string bytes => rfl
  | _ => cases hstring

theorem readJsonString_object {name : List UInt8} {value : JsonValue} (hobject : value.type = .object) :
    (parseParameter jc (name, value)).readJsonString view = jc.toJsonString value := by
  cases value with
  | object members => rfl
  | _ => cases hobject

theorem member_number_iff {type : JsonType} : type.member = some .number ↔ type = .int := by
  cases type <;> decide

theorem member_string_iff {type : JsonType} : type.member = some .string ↔ type = .string := by
  cases type <;> decide

theorem member_jsonString_iff {type : JsonType} : type.member = some .jsonString ↔ type = .object := by
  cases type <;> decide

theorem setstreamReads_cons (name : List UInt8) (value : JsonValue) (parameters : List TypedParameter) :
    setstreamReads view s (parseParameter jc (name, value) :: parameters) =
      if takenFor name nameId then
        (parseParameter jc (name, value), .number) ::
          if (findClient s (UInt16.ofInt ((parseParameter jc (name, value)).readNumber view))).isSome then
            setstreamReads view s parameters
          else []
      else if takenFor name nameStreamId then
        (parseParameter jc (name, value), .string) ::
          if (streamFindName s ((parseParameter jc (name, value)).readString view)).isSome then
            setstreamReads view s parameters
          else []
      else setstreamReads view s parameters := rfl

/-- The parameters of Client.SetStream that are read have the expected types if and only if each is read
through its own member. -/
theorem setstreamReads_iff (params : List (List UInt8 × JsonValue)) :
    (∀ read ∈ setstreamReads view s (params.map (parseParameter jc)), OwnMember read) ↔
      SetstreamFits jc s params := by
  induction params with
  | nil => exact iff_of_true (fun _ hmem => absurd hmem (List.not_mem_nil)) trivial
  | cons entry params ih =>
      obtain ⟨name, value⟩ := entry
      have htail : ∀ goesOn : Bool,
          (∀ read ∈ (if goesOn then setstreamReads view s (params.map (parseParameter jc)) else []),
            OwnMember read) ↔ (goesOn = true → SetstreamFits jc s params) := by
        intro goesOn
        cases goesOn with
        | false => exact iff_of_true (fun _ hmem => absurd hmem (List.not_mem_nil)) (fun hno => nomatch hno)
        | true => exact ih.trans ⟨fun hfits _ => hfits, fun hfits => hfits rfl⟩
      rw [List.map_cons, setstreamReads_cons, SetstreamFits]
      by_cases hid : takenFor name nameId = true
      · rw [if_pos hid, if_pos hid, List.forall_mem_cons, htail]
        refine (and_congr_left' member_number_iff).trans (and_congr_right fun hint => ?_)
        rw [readNumber_int hint]
      · rw [if_neg hid, if_neg hid]
        by_cases hstream : takenFor name nameStreamId = true
        · rw [if_pos hstream, if_pos hstream, List.forall_mem_cons, htail]
          refine (and_congr_left' member_string_iff).trans (and_congr_right fun hstring => ?_)
          rw [readString_string hstring]
        · rw [if_neg hstream, if_neg hstream]
          exact ih

/-- A wrong type among parameters of which the first one is right is among the others. -/
theorem wrong_tail {method : Option RpcMethod} {entry : List UInt8 × JsonValue}
    {params : List (List UInt8 × JsonValue)} (hright : RightType method entry)
    (hwrong : ∃ other ∈ entry :: params, ¬RightType method other) :
    ∃ other ∈ params, ¬RightType method other :=
  ((List.exists_mem_cons_iff _ entry params).mp hwrong).resolve_left (not_not.mpr hright)

theorem rightType_setStream {name : List UInt8} {value : JsonValue} :
    RightType (some .setStream) (name, value) ↔
      if takenFor name nameId then value.type = .int
      else if takenFor name nameStreamId then value.type = .string
      else True := by
  unfold RightType expectedType
  dsimp only
  split_ifs <;> simp

theorem setstreamLoop_cons (name : List UInt8) (value : JsonValue)
    (params : List (List UInt8 × JsonValue)) (client : Option (Fin (n + 1) × Nat))
    (newstream : Option (Fin (n + 1))) :
    setstreamLoop s (readParameters jc view ((name, value) :: params)) client newstream =
      if takenFor name nameId then
        match findClient s (UInt16.ofInt ((parseParameter jc (name, value)).readNumber view)) with
        | none => (none, newstream)
        | some found => setstreamLoop s (readParameters jc view params) (some found) newstream
      else if takenFor name nameStreamId then
        match streamFindName s ((parseParameter jc (name, value)).readString view) with
        | none => (client, none)
        | some found => setstreamLoop s (readParameters jc view params) client (some found)
      else setstreamLoop s (readParameters jc view params) client newstream := rfl

/-- If a type is wrong where the loop does not get, then it has ended without a client or a stream. -/
theorem setstreamLoop_wrong {params : List (List UInt8 × JsonValue)} (hfits : SetstreamFits jc s params)
    (hwrong : ∃ entry ∈ params, ¬RightType (some .setStream) entry)
    (client : Option (Fin (n + 1) × Nat)) (newstream : Option (Fin (n + 1))) :
    (setstreamLoop s (readParameters jc view params) client newstream).1 = none ∨
      (setstreamLoop s (readParameters jc view params) client newstream).2 = none := by
  induction params generalizing client newstream with
  | nil =>
      obtain ⟨entry, hmem, -⟩ := hwrong
      exact absurd hmem List.not_mem_nil
  | cons entry params ih =>
      obtain ⟨name, value⟩ := entry
      have hright := @rightType_setStream name value
      rw [SetstreamFits] at hfits
      rw [setstreamLoop_cons]
      by_cases hid : takenFor name nameId = true
      · rw [if_pos hid] at hfits hright ⊢
        obtain ⟨hint, hfits⟩ := hfits
        rw [readNumber_int hint]
        cases hfind : findClient s (UInt16.ofInt (jc.getInt value)) with
        | none => exact .inl rfl
        | some found =>
            rw [hfind] at hfits
            exact ih (hfits rfl) (wrong_tail (hright.mpr hint) hwrong) (some found) newstream
      · rw [if_neg hid] at hfits hright ⊢
        by_cases hstream : takenFor name nameStreamId = true
        · rw [if_pos hstream] at hfits hright ⊢
          obtain ⟨hstring, hfits⟩ := hfits
          rw [readString_string hstring]
          cases hfind : streamFindName s (jc.getString value) with
          | none => exact .inr rfl
          | some found =>
              rw [hfind] at hfits
              exact ih (hfits rfl) (wrong_tail (hright.mpr hstring) hwrong) client (some found)
        · rw [if_neg hstream] at hfits hright ⊢
          exact ih hfits (wrong_tail (hright.mpr trivial) hwrong) client newstream

/-- Client.SetStream expects no object. -/
theorem rightMember_setStream {entry : List UInt8 × JsonValue} (hwrong : ¬RightMember (some .setStream) entry) :
    ¬RightType (some .setStream) entry := by
  refine fun hright => hwrong ⟨hright, fun hobject => ?_⟩
  unfold expectedType at hobject
  dsimp only at hobject
  split_ifs at hobject <;> cases hobject

/-- Then nothing is changed. -/
theorem handleClientSetstream_wrong {opened : Option Nat} {request : JsonrpcRequest}
    {members : List (List UInt8 × JsonValue)}
    (hparameters : request.parameters.reverse = readParameters jc view members.reverse)
    (hfits : SetstreamFits jc s members.reverse)
    (hwrong : ∃ entry ∈ members, ¬RightMember (some .setStream) entry) :
    handleClientSetstream opened s request = .ok (s, none) := by
  obtain ⟨entry, hmem, hentry⟩ := hwrong
  have hloop := @setstreamLoop_wrong n jc view s members.reverse hfits
    ⟨entry, List.mem_reverse.mpr hmem, rightMember_setStream hentry⟩ none none
  unfold handleClientSetstream
  rw [hparameters]
  revert hloop
  generalize setstreamLoop s (readParameters jc view members.reverse) none none = found
  obtain ⟨client, newstream⟩ := found
  rintro (hnone | hnone)
  · dsimp only at hnone
    rw [hnone]
    rfl
  · dsimp only at hnone
    rw [hnone]
    cases client <;> rfl

theorem setvolumeReads_cons (name : List UInt8) (value : JsonValue) (parameters : List TypedParameter)
    (mute : Bool) :
    setvolumeReads jc view s (parseParameter jc (name, value) :: parameters) mute =
      if takenFor name nameId then
        (parseParameter jc (name, value), .number) ::
          if (findClient s (UInt16.ofInt ((parseParameter jc (name, value)).readNumber view))).isSome then
            setvolumeReads jc view s parameters mute
          else []
      else if takenFor name nameVolume then
        (parseParameter jc (name, value), .jsonString) ::
          match ((jc.tokenerParse ((parseParameter jc (name, value)).readJsonString view)).map
            (volumeObject jc)).bind (muteAfter mute) with
          | none => []
          | some mute => setvolumeReads jc view s parameters mute
      else setvolumeReads jc view s parameters mute := rfl

theorem setvolumeLoop_cons (name : List UInt8) (value : JsonValue)
    (params : List (List UInt8 × JsonValue)) (found : SetvolumeFound n) :
    setvolumeLoop s (readParameters jc view ((name, value) :: params)) found =
      if takenFor name nameId then
        match findClient s (UInt16.ofInt ((parseParameter jc (name, value)).readNumber view)) with
        | none => pure ({ found with client := none }, .apply)
        | some client =>
            setvolumeLoop s (readParameters jc view params) { found with client := some client }
      else if takenFor name nameVolume then
        match (jc.tokenerParse ((parseParameter jc (name, value)).readJsonString view)).map
          (volumeObject jc) with
        | none => pure (found, .reply)
        | some object => do
            match ← readVolume found object with
            | none => pure (found, .reply)
            | some found => setvolumeLoop s (readParameters jc view params) found
      else setvolumeLoop s (readParameters jc view params) found := rfl

def foundIn (client : Option (Fin (n + 1) × Nat)) (volume : Option VolumeObject) : SetvolumeFound n :=
  ⟨client, volume.bind fun object => object.percent.join, volume.bind VolumeObject.mute⟩

/-- A volume object takes the place of the one before, unless that has left a mute flag. -/
theorem readVolume_percent {client : Option (Fin (n + 1) × Nat)} {volume : Option VolumeObject}
    {object : VolumeObject} (hpercent : object.percent.isSome) :
    readVolume (foundIn client volume) object =
      if (volume.bind VolumeObject.mute).isSome then .error .useAfterFree
      else .ok (some (foundIn client (some object))) := by
  obtain ⟨percent, muted⟩ := object
  obtain ⟨percent, rfl⟩ := Option.isSome_iff_exists.mp hpercent
  rw [readVolume]
  dsimp only
  cases hmute : (foundIn client volume).mute with
  | some mute =>
      have hsome : (volume.bind VolumeObject.mute) = some mute := hmute
      rw [hsome]
      rfl
  | none =>
      have hnone : (volume.bind VolumeObject.mute) = none := hmute
      rw [hnone]
      rfl

theorem readVolume_muted {client : Option (Fin (n + 1) × Nat)} {volume : Option VolumeObject}
    {object : VolumeObject} (hpercent : object.percent = none) {mute : Option Bool}
    (hmuted : object.muted = some mute) :
    readVolume (foundIn client volume) object = .ok (some (foundIn client (some object))) := by
  obtain ⟨percent, muted⟩ := object
  cases hpercent
  cases hmuted
  rfl

/-- At the end the server is left as it is only if the volume object sets nothing. -/
theorem applySetvolume_foundIn {client : Option (Fin (n + 1) × Nat)} {volume : Option VolumeObject} :
    applySetvolume s (foundIn client volume) .apply = .ok s ↔
      ∀ target ∈ client, ∀ object ∈ volume, SetsNothing s target object := by
  refine applySetvolume_same_iff.trans (forall₂_congr fun target _ => ?_)
  cases volume with
  | none => exact iff_of_true ⟨rfl, fun _ hmem => nomatch hmem⟩ fun _ hmem => nomatch hmem
  | some object =>
      refine ⟨fun hsame other hother => ?_, fun hall => hall object rfl⟩
      cases hother
      exact hsame

/-- If the parameters of Client.SetVolume fit then each read is through the own member, and if a member is
wrong then the loop ends with something that leaves the server as it is. -/
theorem setvolumeReads_of_fits {wrong : Prop} {params : List (List UInt8 × JsonValue)}
    {client : Option (Fin (n + 1) × Nat)} {volume : Option VolumeObject}
    (hfits : SetvolumeFits jc s wrong params client volume) :
    (∀ read ∈ setvolumeReads jc view s (params.map (parseParameter jc)) (volume.bind VolumeObject.mute).isSome,
        OwnMember read) ∧
      (wrong → ∃ found jump, setvolumeLoop s (readParameters jc view params) (foundIn client volume) =
        .ok (found, jump) ∧ applySetvolume s found jump = .ok s) := by
  have hnone : ∀ read ∈ ([] : List (TypedParameter × UnionMember)), OwnMember read :=
    fun _ hmem => absurd hmem List.not_mem_nil
  induction params generalizing client volume with
  | nil => exact ⟨hnone, fun hwrong => ⟨_, _, rfl, applySetvolume_foundIn.mpr (hfits hwrong)⟩⟩
  | cons entry params ih =>
      obtain ⟨name, value⟩ := entry
      rw [SetvolumeFits] at hfits
      rw [List.map_cons, setvolumeReads_cons, setvolumeLoop_cons]
      by_cases hid : takenFor name nameId = true
      · rw [if_pos hid] at hfits
        rw [if_pos hid, if_pos hid]
        obtain ⟨hint, hfits⟩ := hfits
        rw [readNumber_int hint, List.forall_mem_cons, and_assoc]
        refine ⟨member_number_iff.mpr hint, ?_⟩
        cases hfind : findClient s (UInt16.ofInt (jc.getInt value)) with
        | none => exact ⟨hnone, fun _ => ⟨_, _, rfl, rfl⟩⟩
        | some target => exact ih (hfits target hfind)
      · rw [if_neg hid] at hfits
        rw [if_neg hid, if_neg hid]
        by_cases hvolume : takenFor name nameVolume = true
        · rw [if_pos hvolume] at hfits
          rw [if_pos hvolume, if_pos hvolume]
          obtain ⟨hobject, hfits⟩ := hfits
          rw [readJsonString_object hobject, List.forall_mem_cons, and_assoc]
          refine ⟨member_jsonString_iff.mpr hobject, ?_⟩
          cases hparse : (jc.tokenerParse (jc.toJsonString value)).map (volumeObject jc) with
          | none => exact ⟨hnone, fun _ => ⟨_, _, rfl, rfl⟩⟩
          | some object =>
              have hnext := hfits object hparse
              have hpercentRead := @readVolume_percent n client volume object
              have hmutedRead := @readVolume_muted n client volume object
              obtain ⟨percent, muted⟩ := object
              cases percent with
              | some percent =>
                  dsimp only at hnext ⊢
                  rw [hpercentRead rfl, Option.bind_some, muteAfter]
                  dsimp only
                  cases hmute : (volume.bind VolumeObject.mute).isSome with
                  | true =>
                      -- the loop follows a freed member here
                      rw [hmute, if_pos rfl] at hnext
                      exact ⟨hnone, fun hwrong => absurd hwrong hnext⟩
                  | false =>
                      rw [hmute, if_neg Bool.false_ne_true] at hnext
                      exact ih hnext
              | none =>
                  cases muted with
                  | some mute =>
                      dsimp only at hnext ⊢
                      rw [hmutedRead rfl rfl, except_ok_bind]
                      exact ih hnext
                  | none => exact ⟨hnone, fun _ => ⟨_, _, rfl, rfl⟩⟩
        · rw [if_neg hvolume] at hfits
          rw [if_neg hvolume, if_neg hvolume]
          exact ih hfits

/-- If each read is through the own member, and the loop ends with something that leaves the server as it is
when a member is wrong, then the parameters fit. -/
theorem setvolumeFits_of_reads {wrong : Prop} {params : List (List UInt8 × JsonValue)}
    {client : Option (Fin (n + 1) × Nat)} {volume : Option VolumeObject}
    (hreads : ∀ read ∈ setvolumeReads jc view s (params.map (parseParameter jc))
      (volume.bind VolumeObject.mute).isSome, OwnMember read)
    (hends : wrong → ∃ found jump, setvolumeLoop s (readParameters jc view params) (foundIn client volume) =
      .ok (found, jump) ∧ applySetvolume s found jump = .ok s) :
    SetvolumeFits jc s wrong params client volume := by
  induction params generalizing client volume with
  | nil =>
      intro hwrong
      obtain ⟨found, jump, hloop, happly⟩ := hends hwrong
      cases hloop
      exact applySetvolume_foundIn.mp happly
  | cons entry params ih =>
      obtain ⟨name, value⟩ := entry
      rw [List.map_cons, setvolumeReads_cons] at hreads
      rw [setvolumeLoop_cons] at hends
      rw [SetvolumeFits]
      by_cases hid : takenFor name nameId = true
      · rw [if_pos hid, List.forall_mem_cons] at hreads
        rw [if_pos hid] at hends ⊢
        obtain ⟨hnumber, hreads⟩ := hreads
        have hint : value.type = .int := member_number_iff.mp hnumber
        rw [readNumber_int hint] at hreads hends
        refine ⟨hint, fun target hfind => ?_⟩
        rw [Option.mem_def.mp hfind] at hreads hends
        exact ih hreads hends
      · rw [if_neg hid] at hreads hends ⊢
        by_cases hvolume : takenFor name nameVolume = true
        · rw [if_pos hvolume, List.forall_mem_cons] at hreads
          rw [if_pos hvolume] at hends ⊢
          obtain ⟨hjsonString, hreads⟩ := hreads
          have hobject : value.type = .object := member_jsonString_iff.mp hjsonString
          rw [readJsonString_object hobject] at hreads hends
          refine ⟨hobject, fun object hparse => ?_⟩
          rw [Option.mem_def.mp hparse] at hreads hends
          have hpercentRead := @readVolume_percent n client volume object
          have hmutedRead := @readVolume_muted n client volume object
          obtain ⟨percent, muted⟩ := object
          cases percent with
          | some percent =>
              dsimp only at hends ⊢
              rw [hpercentRead rfl] at hends
              rw [Option.bind_some, muteAfter] at hreads
              dsimp only at hreads
              cases hmute : (volume.bind VolumeObject.mute).isSome with
              | true =>
                  -- the loop follows a freed member here, so nothing is wrong
                  intro hwrong
                  obtain ⟨found, jump, hloop, -⟩ := hends hwrong
                  rw [hmute] at hloop
                  cases hloop
              | false =>
                  rw [hmute] at hreads hends
                  exact ih hreads hends
          | none =>
              cases muted with
              | some mute =>
                  dsimp only at hends ⊢
                  rw [hmutedRead rfl rfl, except_ok_bind] at hends
                  exact ih hreads hends
              | none => trivial
        · rw [if_neg hvolume] at hreads hends ⊢
          exact ih hreads hends

/-- If a member is wrong, then nothing is changed. -/
theorem handleClientSetvolume_wrong {request : JsonrpcRequest} {wrong : Prop}
    {members : List (List UInt8 × JsonValue)}
    (hparameters : request.parameters.reverse = readParameters jc view members.reverse)
    (hfits : SetvolumeFits jc s wrong members.reverse none none) (hwrong : wrong) :
    ∃ reply, handleClientSetvolume s request = .ok (s, reply) := by
  obtain ⟨found, jump, hloop, happly⟩ := (@setvolumeReads_of_fits n jc view s wrong members.reverse none none
    hfits).2 hwrong
  refine ⟨volumeReply s found.client, ?_⟩
  unfold handleClientSetvolume
  change setvolumeLoop s _ ⟨none, none, none⟩ = _ at hloop
  rw [hparameters, hloop, except_ok_bind]
  dsimp only
  rw [happly, except_ok_bind]
  rfl

/-- What the other members of the unions read as does not matter for a stream that is to be set. -/
theorem setstreamLoop_view {view' : UnionView} {params : List (List UInt8 × JsonValue)}
    (hfits : SetstreamFits jc s params) (client : Option (Fin (n + 1) × Nat))
    (newstream : Option (Fin (n + 1))) :
    setstreamLoop s (readParameters jc view params) client newstream =
      setstreamLoop s (readParameters jc view' params) client newstream := by
  induction params generalizing client newstream with
  | nil => rfl
  | cons entry params ih =>
      obtain ⟨name, value⟩ := entry
      rw [SetstreamFits] at hfits
      rw [setstreamLoop_cons, setstreamLoop_cons]
      by_cases hid : takenFor name nameId = true
      · rw [if_pos hid] at hfits
        rw [if_pos hid, if_pos hid, readNumber_int hfits.1, readNumber_int hfits.1]
        cases hfind : findClient s (UInt16.ofInt (jc.getInt value)) with
        | none => rfl
        | some found =>
            rw [hfind] at hfits
            exact ih (hfits.2 rfl) (some found) newstream
      · rw [if_neg hid] at hfits
        rw [if_neg hid, if_neg hid]
        by_cases hstream : takenFor name nameStreamId = true
        · rw [if_pos hstream] at hfits
          rw [if_pos hstream, if_pos hstream, readString_string hfits.1, readString_string hfits.1]
          cases hfind : streamFindName s (jc.getString value) with
          | none => rfl
          | some found =>
              rw [hfind] at hfits
              exact ih (hfits.2 rfl) client (some found)
        · rw [if_neg hstream] at hfits
          rw [if_neg hstream, if_neg hstream]
          exact ih hfits client newstream

/-- Nor for a volume. -/
theorem setvolumeLoop_view {view' : UnionView} {wrong : Prop} {params : List (List UInt8 × JsonValue)}
    {client : Option (Fin (n + 1) × Nat)} {volume : Option VolumeObject}
    (hfits : SetvolumeFits jc s wrong params client volume) :
    setvolumeLoop s (readParameters jc view params) (foundIn client volume) =
      setvolumeLoop s (readParameters jc view' params) (foundIn client volume) := by
  induction params generalizing client volume with
  | nil => rfl
  | cons entry params ih =>
      obtain ⟨name, value⟩ := entry
      rw [SetvolumeFits] at hfits
      rw [setvolumeLoop_cons, setvolumeLoop_cons]
      by_cases hid : takenFor name nameId = true
      · rw [if_pos hid] at hfits
        rw [if_pos hid, if_pos hid, readNumber_int hfits.1, readNumber_int hfits.1]
        cases hfind : findClient s (UInt16.ofInt (jc.getInt value)) with
        | none => rfl
        | some target => exact ih (hfits.2 target hfind)
      · rw [if_neg hid] at hfits
        rw [if_neg hid, if_neg hid]
        by_cases hvolume : takenFor name nameVolume = true
        · rw [if_pos hvolume] at hfits
          rw [if_pos hvolume, if_pos hvolume, readJsonString_object hfits.1, readJsonString_object hfits.1]
          cases hparse : (jc.tokenerParse (jc.toJsonString value)).map (volumeObject jc) with
          | none => rfl
          | some object =>
              have hnext := hfits.2 object hparse
              have hpercentRead := @readVolume_percent n client volume object
              have hmutedRead := @readVolume_muted n client volume object
              obtain ⟨percent, muted⟩ := object
              cases percent with
              | some percent =>
                  dsimp only at hnext ⊢
                  rw [hpercentRead rfl]
                  cases hmute : (volume.bind VolumeObject.mute).isSome with
                  | true => rfl
                  | false =>
                      rw [hmute, if_neg Bool.false_ne_true] at hnext
                      exact ih hnext
              | none =>
                  cases muted with
                  | some mute =>
                      dsimp only at hnext ⊢
                      rw [hmutedRead rfl rfl, except_ok_bind, except_ok_bind]
                      exact ih hnext
                  | none => rfl
        · rw [if_neg hvolume] at hfits
          rw [if_neg hvolume, if_neg hvolume]
          exact ih hfits

end Loops

/-! ### A line -/

section Line

variable {opened : Option Nat} {jc : JsonC} {view : UnionView} {s : Server n} {line : List UInt8}
  {jobj method : JsonValue} {body : List UInt8} {members : List (List UInt8 × JsonValue)}

def parsedRequest (jc : JsonC) (jobj : JsonValue) (method : List UInt8)
    (members : List (List UInt8 × JsonValue)) : ParsedRequest :=
  ⟨((jobj.objectGetEx nameId).map jc.getInt).getD 0, method, members.map (parseParameter jc)⟩

theorem parseParams_object (hparams : jobj.objectGetEx (literal "params") = some (.object members)) :
    parseParams jc jobj body = .ok (some (parsedRequest jc jobj body members)) := by
  unfold parseParams
  rw [hparams]
  rfl

theorem parsedRequest_reverse :
    (parsedRequest jc jobj body members).parameters.reverse = members.reverse.map (parseParameter jc) :=
  List.map_reverse.symm

theorem request_reverse :
    ((parsedRequest jc jobj body members).request jc view).parameters.reverse =
      readParameters jc view members.reverse := by
  change ((members.map (parseParameter jc)).map (TypedParameter.parameter jc view)).reverse = _
  rw [List.map_map, ← List.map_reverse]
  rfl

/-- A request whose method was copied is handled when it was parsed. -/
theorem handleLine_of_parsed {parsed : ParsedRequest}
    (hparsed : jsonrpcParseString jc line = .ok (some parsed)) :
    handleLine opened jc view s line =
      handleRequest opened s parsed.method (parsed.request jc view) := by
  unfold handleLine
  rw [hparsed, except_ok_bind]

/-- The reads of a request's unions, and that it leaves the server as it was when a member is wrong, say that
its parameters fit. -/
theorem paramsFit_of_own
    (hreads : ∀ read ∈ requestReads jc view s (parsedRequest jc jobj body members), OwnMember read)
    (hends : (∃ entry ∈ members, ¬RightMember (rpcMethod body) entry) → ∃ response,
      handleRequest opened s body ((parsedRequest jc jobj body members).request jc view) = .ok (s, response)) :
    ParamsFit jc s (rpcMethod body) (some (.object members)) := by
  unfold requestReads at hreads
  unfold handleRequest at hends
  rw [parsedRequest_reverse] at hreads
  change ∀ read ∈ (match rpcMethod body with
    | some .setStream => setstreamReads view s (members.reverse.map (parseParameter jc))
    | some .setVolume => setvolumeReads jc view s (members.reverse.map (parseParameter jc)) false
    | _ => []), OwnMember read at hreads
  cases hmethod : rpcMethod body with
  | none => trivial
  | some known =>
      rw [hmethod] at hreads hends
      cases known with
      | getRPCVersion => trivial
      | getStatus => trivial
      | setStream => exact (setstreamReads_iff members.reverse).mp hreads
      | setVolume =>
          refine @setvolumeFits_of_reads n jc view s _ members.reverse none none hreads fun hwrong => ?_
          obtain ⟨response, hresponse⟩ := hends hwrong
          obtain ⟨⟨s', reply⟩, hvolume, hsame⟩ := except_bind_ok hresponse
          cases hsame
          unfold handleClientSetvolume at hvolume
          rw [request_reverse] at hvolume
          obtain ⟨⟨found, jump⟩, hfound, hvolume⟩ := except_bind_ok hvolume
          obtain ⟨s', happly, hsame⟩ := except_bind_ok hvolume
          cases hsame
          exact ⟨found, jump, hfound, happly⟩

/-- Parameters that fit are read through the own members. -/
theorem requestReads_own (hfits : ParamsFit jc s (rpcMethod body) (some (.object members))) :
    ∀ read ∈ requestReads jc view s (parsedRequest jc jobj body members), OwnMember read := by
  unfold requestReads
  rw [parsedRequest_reverse]
  change ∀ read ∈ (match rpcMethod body with
    | some .setStream => setstreamReads view s (members.reverse.map (parseParameter jc))
    | some .setVolume => setvolumeReads jc view s (members.reverse.map (parseParameter jc)) false
    | _ => []), OwnMember read
  have hnone : ∀ read ∈ ([] : List (TypedParameter × UnionMember)), OwnMember read :=
    fun _ hmem => absurd hmem List.not_mem_nil
  cases hmethod : rpcMethod body with
  | none => exact hnone
  | some known =>
      rw [hmethod] at hfits
      cases known with
      | getRPCVersion => exact hnone
      | getStatus => exact hnone
      | setStream => exact (setstreamReads_iff members.reverse).mpr hfits
      | setVolume => exact (@setvolumeReads_of_fits n jc view s _ members.reverse none none hfits).1

/-- Without parameters no union is read. -/
theorem requestReads_nil {parsed : ParsedRequest} (hnil : parsed.parameters = []) :
    ∀ read ∈ requestReads jc view s parsed, OwnMember read := by
  have hnone : ∀ read ∈ ([] : List (TypedParameter × UnionMember)), OwnMember read :=
    fun _ hmem => absurd hmem List.not_mem_nil
  unfold requestReads
  rw [hnil]
  cases rpcMethod parsed.method with
  | none => exact hnone
  | some known => cases known <;> exact hnone

/-- If the parameters fit though a member is wrong, then the request changes nothing. -/
theorem handleRequest_wrong (hfits : ParamsFit jc s (rpcMethod body) (some (.object members)))
    (hwrong : ∃ entry ∈ members, ¬RightMember (rpcMethod body) entry) :
    ∃ response, handleRequest opened s body ((parsedRequest jc jobj body members).request jc view) =
      .ok (s, response) := by
  unfold handleRequest
  cases hmethod : rpcMethod body with
  | none => exact ⟨_, rfl⟩
  | some known =>
      rw [hmethod] at hfits hwrong
      cases known with
      | getRPCVersion => exact ⟨_, rfl⟩
      | getStatus => exact ⟨_, rfl⟩
      | setStream =>
          dsimp only
          rw [handleClientSetstream_wrong request_reverse hfits hwrong, except_ok_bind]
          exact ⟨_, rfl⟩
      | setVolume =>
          obtain ⟨reply, hreply⟩ := handleClientSetvolume_wrong request_reverse hfits hwrong
          dsimp only
          rw [hreply, except_ok_bind]
          exact ⟨_, rfl⟩

/-- A line whose members fit has no parameters, or parameters that fit its method. -/
theorem parsed_of_fits {parsed : ParsedRequest} (hfits : MembersFit jc s line)
    (hparsed : jsonrpcParseString jc line = .ok (some parsed)) :
    parsed.parameters = [] ∨ ∃ jobj body members, parsed = parsedRequest jc jobj body members ∧
      ParamsFit jc s (rpcMethod body) (some (.object members)) := by
  obtain ⟨head, hhead, hrest⟩ := except_bind_ok hparsed
  cases head with
  | none => cases hrest
  | some head =>
      obtain ⟨jobj, method⟩ := head
      obtain ⟨bytes, body, -, hbody, hrange, hparamsFit⟩ := hfits jobj method (requestHead_iff.mp hhead)
      have hcopy := strcopyFromJson_quoted.mpr hrange
      rw [← hbody] at hcopy
      rw [jsonrpcParseString_of_head hhead hcopy] at hparsed
      cases hparams : jobj.objectGetEx (literal "params") with
      | none =>
          unfold parseParams at hparsed
          rw [hparams] at hparsed
          cases hparsed
          exact .inl rfl
      | some params =>
          rw [hparams] at hparamsFit
          cases params with
          | object members =>
              rw [parseParams_object hparams] at hparsed
              cases hparsed
              exact .inr ⟨jobj, body, members, rfl, hparamsFit⟩
          | null =>
              unfold parseParams at hparsed
              rw [hparams] at hparsed
              cases hparsed
          | _ => exact absurd hparamsFit id

/-- What the other members of the unions read as does not matter for a request. -/
theorem handleRequest_view {view' : UnionView}
    (hfits : ParamsFit jc s (rpcMethod body) (some (.object members))) :
    handleRequest opened s body ((parsedRequest jc jobj body members).request jc view) =
      handleRequest opened s body ((parsedRequest jc jobj body members).request jc view') := by
  unfold handleRequest
  cases hmethod : rpcMethod body with
  | none => rfl
  | some known =>
      rw [hmethod] at hfits
      cases known with
      | getRPCVersion => rfl
      | getStatus => rfl
      | setStream =>
          have hsame : handleClientSetstream opened s ((parsedRequest jc jobj body members).request jc view) =
              handleClientSetstream opened s ((parsedRequest jc jobj body members).request jc view') := by
            unfold handleClientSetstream
            rw [request_reverse, request_reverse, @setstreamLoop_view n jc view s view' _ hfits]
          dsimp only
          rw [hsame]
          rfl
      | setVolume =>
          have hsame : handleClientSetvolume s ((parsedRequest jc jobj body members).request jc view) =
              handleClientSetvolume s ((parsedRequest jc jobj body members).request jc view') := by
            unfold handleClientSetvolume
            have hloop := @setvolumeLoop_view n jc view s view' _ _ none none hfits
            change setvolumeLoop s _ ⟨none, none, none⟩ = setvolumeLoop s _ ⟨none, none, none⟩ at hloop
            rw [request_reverse, request_reverse, hloop]
          dsimp only
          rw [hsame]
          rfl

/-- A line whose members fit is handled in the same way whatever the other members of the unions read
as. -/
theorem handleLine_view {view' : UnionView} (hfits : MembersFit jc s line) :
    handleLine opened jc view s line = handleLine opened jc view' s line := by
  cases hparse : jsonrpcParseString jc line with
  | error fault =>
      unfold handleLine
      rw [hparse]
      rfl
  | ok result =>
      cases result with
      | none =>
          unfold handleLine
          rw [hparse]
          rfl
      | some parsed =>
          rw [handleLine_of_parsed hparse, handleLine_of_parsed hparse]
          obtain hnil | ⟨jobj, body, members, rfl, hparamsFit⟩ := parsed_of_fits hfits hparse
          · unfold ParsedRequest.request
            rw [hnil]
            rfl
          · exact handleRequest_view hparamsFit

end Line

/-- The volume of the request below, the text of an object. -/
def stringVolume : List UInt8 := literal "\x7b\"percent\":30\x7d"

/-- A Client.SetVolume request with a string for the volume. -/
def stringVolumeLine : List UInt8 :=
  literal "\x7b\"jsonrpc\":\"2.0\",\"id\":1,\"method\":\"Client.SetVolume\",\"params\":" ++
    literal "\x7b\"id\":1,\"volume\":\"\x7b\\\"percent\\\":30\x7d\"\x7d\x7d"

/-- The parameters of that request. -/
def stringVolumeMembers : List (List UInt8 × JsonValue) :=
  [(nameId, .int 1), (nameVolume, .string stringVolume)]

/-- The request as json-c parses it. -/
def stringVolumeObject : JsonValue :=
  .object [(literal "jsonrpc", .string (literal "2.0")), (nameId, .int 1),
    (literal "method", .string (literal "Client.SetVolume")),
    (literal "params", .object stringVolumeMembers)]

/-- json-c, on the texts and the values of that request. -/
def stringVolumeJson : JsonC where
  tokenerParse line :=
    if line = stringVolumeLine then some stringVolumeObject
    else if line = stringVolume then some (.object [(literal "percent", .int 30)])
    else none
  toJsonStringExt
    | .string bytes => quoted bytes
    | _ => []
  toJsonString
    | .string bytes => quoted bytes
    | _ => []
  getInt
    | .int value => value
    | _ => 0
  getBoolean
    | .boolean value => value
    | _ => false
  getString
    | .string bytes => bytes
    | _ => []

/-- The two pointers of the union are at the same place. -/
def pointerView : UnionView where
  string p :=
    match p.value with
    | .jsonString text => text
    | _ => []
  number _ := 0
  jsonString p :=
    match p.value with
    | .string bytes => bytes
    | _ => []

end Snapcastc
