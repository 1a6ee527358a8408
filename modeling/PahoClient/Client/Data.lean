import PahoClient.Store.Table

/-!
# Data of the client

The values that the client exchanges with the asynchronous library and keeps in
its callback table, together with the loops that the subscribe and unsubscribe
operations run over their topic lists.
-/

namespace PahoClient

open PahoClient.Store

/-- Content of a `std::string`: a sequence of bytes. -/
abbrev StdString := List UInt8

/-- The string that `std::string(const char *)` reads: everything before the
first terminator. -/
def StdString.ofCString (storage : List UInt8) : StdString :=
  storage.takeWhile (· != 0)

/-- A pointer to a function of type `MQTTAsync_messageArrived`. -/
structure Callback where
  address : Nat
  deriving DecidableEq, Repr

/-- The pointer `NULL`. -/
def Callback.null : Callback :=
  ⟨0⟩

/-- `std::unordered_map<std::string, MQTTAsync_messageArrived *>`. -/
abbrev CallbackMap := Table StdString Callback

/-- `MQTTASYNC_SUCCESS`, returned for an accepted command. -/
def MQTTASYNC_SUCCESS : Int :=
  0

/-- `MQTT_BAD_SUBSCRIBE`, the returned code of a refused topic. -/
def MQTT_BAD_SUBSCRIBE : Int :=
  0x80

/-- The fields of `MQTTAsync_failureData` that a handler reads. -/
structure FailureData where
  code : Int
  message : Option String
  deriving DecidableEq, Repr

/-- The members of the union `alt` of `MQTTAsync_successData` that concern the
operations of the client. -/
structure SuccessData where
  qos : Int
  qosList : List Int
  sessionPresent : Int
  deriving DecidableEq, Repr

/-- The completion of an accepted command. -/
inductive Completion where
  | onFailure (res : Option FailureData)
  | onSuccess (res : SuccessData)
  deriving DecidableEq, Repr

namespace Subscribe

/-- The two vectors passed to `subscribe`.  The insertion loop reads
`_callbacks[i]` for every topic index, so the callbacks cover the topics. -/
structure Args where
  topicos : List StdString
  callbacks : List Callback
  covered : topicos.length ≤ callbacks.length

/-- The vectors of a call that pairs each topic with a callback. -/
def Args.ofPairs (pairs : List (StdString × Callback)) : Args where
  topicos := pairs.map Prod.fst
  callbacks := pairs.map Prod.snd
  covered := by simp

/-- `_qos_requisitados(_topicos.size(), 1)`. -/
def qosRequisitados (args : Args) : List Int :=
  List.replicate args.topicos.length 1

/-- The returned codes: `alt.qos` for one topic and `alt.qosList` for several. -/
def qosDevolvidos (args : Args) (res : SuccessData) : List Int :=
  if (qosRequisitados args).length = 1 then [res.qos] else res.qosList

/-- The test of the loop in `sucesso` for one returned and one requested code. -/
def codigoRecusado (devolvido requisitado : Int) : Bool :=
  devolvido == MQTT_BAD_SUBSCRIBE || decide (devolvido < requisitado)

/-- Whether the loop of `sucesso` takes its early exit. -/
def recusado (args : Args) (res : SuccessData) : Bool :=
  ((qosDevolvidos args res).zip (qosRequisitados args)).any fun codes =>
    codigoRecusado codes.1 codes.2

/-- The insertion loop of `despachar`. -/
def inserir (args : Args) (map : CallbackMap) : CallbackMap :=
  map.insertAll (args.topicos.zip args.callbacks)

/-- The rollback loop shared by `despachar`, `falha` and `sucesso`: it runs over
the indices of `_qos_requisitados`. -/
def desfazer (args : Args) (map : CallbackMap) : CallbackMap :=
  map.eraseAll (args.topicos.take (qosRequisitados args).length)

theorem qosRequisitados_length (args : Args) :
    (qosRequisitados args).length = args.topicos.length :=
  List.length_replicate

theorem desfazer_eq_eraseAll (args : Args) (map : CallbackMap) :
    desfazer args map = map.eraseAll args.topicos := by
  rw [desfazer, qosRequisitados_length, List.take_length]

end Subscribe

/-- The erasure loop of `Unsubscribe::despachar`. -/
def Unsubscribe.apagar (topicos : List StdString) (map : CallbackMap) : CallbackMap :=
  map.eraseAll topicos

/-- A call on the public interface of the client. -/
inductive Operation where
  | conectar
  | subscribe (args : Subscribe.Args)
  | unsubscribe (topicos : List StdString)
  | desconectar

namespace Operation

/-- The operations that take `_conexao_mtx`. -/
def usesConexao : Operation → Bool
  | conectar | desconectar => true
  | subscribe _ | unsubscribe _ => false

/-- The topics that a call names. -/
def topicos : Operation → List StdString
  | subscribe args => args.topicos
  | unsubscribe topicos => topicos
  | conectar | desconectar => []

/-- The value that the completion handler of the operation stores in `_res`. -/
def outcome : Operation → Completion → Bool
  | _, .onFailure _ => false
  | subscribe args, .onSuccess res => !Subscribe.recusado args res
  | conectar, .onSuccess _ | unsubscribe _, .onSuccess _ | desconectar, .onSuccess _ => true

/-- What the library promises about the data of a completion: one returned code
for each requested topic. -/
def answers : Operation → Completion → Bool
  | subscribe args, .onSuccess res =>
      (Subscribe.qosDevolvidos args res).length == args.topicos.length
  | _, _ => true

end Operation

/-! ## Data of examples -/

/-- One topic with one callback. -/
def topicoUnico : Subscribe.Args :=
  .ofPairs [([97], ⟨1⟩)]

/-- Two topics with one callback each. -/
def doisTopicos : Subscribe.Args :=
  .ofPairs [([97], ⟨1⟩), ([98], ⟨2⟩)]

/-- A table in which the topic is registered with a callback of its own. -/
def tabelaComUm : CallbackMap :=
  fun topico => if topico = [97] then some ⟨7⟩ else none

end PahoClient
