import PahoClient.Client.Preservation

/-!
# Handlers and the pointers they receive

The library calls back with the context that it was registered with.  A handler
casts the context to a class and reads optional pointers before it takes any
lock; this part of each handler is a partial function that has no value when a
cast or a dereference is wrong.
-/

namespace PahoClient

open PahoClient.Transition

/-! ## Objects behind `void *` -/

/-- The classes that a handler casts its context to. -/
inductive Classe where
  | MQTTClient
  | Connect
  | Subscribe
  | Unsubscribe
  | Disconnect
  deriving DecidableEq, Repr

/-- An object whose address can travel through a `void *`. -/
inductive Objeto where
  | client
  | contexto (x : ContextId)
  deriving DecidableEq, Repr

/-- The class of an object.  Only subscribe and unsubscribe calls construct
temporaries. -/
def Objeto.classe (program : Program) : Objeto → Option Classe
  | .client => some .MQTTClient
  | .contexto .conexao => some .Connect
  | .contexto .desconexao => some .Disconnect
  | .contexto (.pedido c) =>
      match program.op c with
      | .subscribe _ => some .Subscribe
      | .unsubscribe _ => some .Unsubscribe
      | .conectar | .desconectar => none

/-- The class of the context through which an operation waits. -/
def Operation.classe : Operation → Classe
  | conectar => .Connect
  | subscribe _ => .Subscribe
  | unsubscribe _ => .Unsubscribe
  | desconectar => .Disconnect

/-- Whether an object exists.  A temporary lives from the start of its call to
the return. -/
def Objeto.vivo (s : State) : Objeto → Bool
  | .client | .contexto .conexao | .contexto .desconexao => true
  | .contexto (.pedido c) => (s.pc c).inProgress

/-- The arguments kept by a context of class `Subscribe`. -/
def Objeto.argumentos (program : Program) : Objeto → Option Subscribe.Args
  | .contexto (.pedido c) =>
      match program.op c with
      | .subscribe args => some args
      | _ => none
  | _ => none

/-- `static_cast` of a context, followed by an access to the object. -/
def staticCast (program : Program) (s : State) (classe : Classe) (ctx : Objeto) :
    Option Objeto :=
  if ctx.classe program = some classe ∧ ctx.vivo s = true then some ctx else none

/-- The use of a pointer that may be `NULL`. -/
def dereference {α : Type} (pointer : Option α) : Option α :=
  pointer

/-! ## Diagnostics -/

/-- The bytes of a string literal. -/
def literal (text : String) : StdString :=
  text.toUTF8.data.toList

/-- The message that every `falha` handler writes: the code and the text are
added when the pointers to them are not `NULL`. -/
def diagnosticoDeFalha (text : String) (uri : StdString) (res : Option FailureData) :
    Option StdString := do
  let mut msg := literal text ++ uri ++ literal "."
  if res.isSome then
    let res ← dereference res
    msg := msg ++ literal " Código: " ++ literal (toString res.code)
    if res.message.isSome then
      let message ← dereference res.message
      msg := msg ++ literal ", mensagem: " ++ literal message
  return msg ++ literal "\n"

section Handlers

variable (program : Program) (s : State) (uri : StdString)

/-- The statements of `Connect::falha` before `_res` is stored. -/
def Connect.falha.diagnostico (ctx : Objeto) (res : Option FailureData) : Option StdString := do
  let _conexao ← staticCast program s .Connect ctx
  diagnosticoDeFalha
    "MQTTClient::Connect::falha: não foi possível estabelecer uma conexão com o broker em " uri res

/-- The statements of `Connect::sucesso` before `_res` is stored. -/
def Connect.sucesso.diagnostico (ctx : Objeto) : Option StdString := do
  let _conexao ← staticCast program s .Connect ctx
  return literal "MQTTClient::Connect::sucesso: conexão ao broker em " ++ uri ++
    literal " bem-sucedida.\n"

/-- `Connect::perdida`. -/
def Connect.perdida (ctx : Objeto) (cause : Option String) : Option StdString := do
  let _client ← staticCast program s .MQTTClient ctx
  let cause ← dereference cause
  return literal "MQTTClient::conexaoPerdida: Conexão com o broker " ++ uri ++
    literal " perdida. Causa: " ++ literal cause ++ literal "\n"

/-- The first statement of `Connect::mensagemRecebida`. -/
def Connect.mensagemRecebida.client (ctx : Objeto) : Option Objeto := do
  let _conexao ← staticCast program s .Connect ctx
  return .client

/-- The statements of `Subscribe::falha` before the table is locked. -/
def Subscribe.falha.diagnostico (ctx : Objeto) (res : Option FailureData) :
    Option StdString := do
  let _subscribe ← staticCast program s .Subscribe ctx
  diagnosticoDeFalha
    "MQTTClient::Subscribe::falha: Falha ao realizar subscribes no broker em " uri res

/-- The loop of `Subscribe::sucesso` up to its early exit: the message names the
first refused topic. -/
def Subscribe.sucesso.diagnostico (ctx : Objeto) (res : SuccessData) : Option StdString := do
  let subscribe ← staticCast program s .Subscribe ctx
  let args ← subscribe.argumentos program
  let codigos := (Subscribe.qosDevolvidos args res).zip (Subscribe.qosRequisitados args)
  match (args.topicos.zip codigos).find? fun entry =>
      Subscribe.codigoRecusado entry.2.1 entry.2.2 with
  | some (topico, devolvido, _) =>
      return literal "MQTTClient::Subscribe::sucesso: Falha ao se inscrever no tópico " ++ topico ++
        literal " no broker " ++ uri ++ literal ". QoS devolvido: " ++
        literal (toString devolvido) ++ literal "\n"
  | none => return []

/-- The statements of `Unsubscribe::falha` before `_res` is stored. -/
def Unsubscribe.falha.diagnostico (ctx : Objeto) (res : Option FailureData) :
    Option StdString := do
  let _unsubscribe ← staticCast program s .Unsubscribe ctx
  diagnosticoDeFalha
    "MQTTClient::Unsubscribe::falha: Falha ao se desinscrever de tópicos no broker " uri res

/-- `Unsubscribe::sucesso` writes no message. -/
def Unsubscribe.sucesso.diagnostico (ctx : Objeto) : Option StdString := do
  let _unsubscribe ← staticCast program s .Unsubscribe ctx
  return []

/-- The statements of `Disconnect::falha` before `_res` is stored. -/
def Disconnect.falha.diagnostico (ctx : Objeto) (res : Option FailureData) :
    Option StdString := do
  let _disconnect ← staticCast program s .Disconnect ctx
  diagnosticoDeFalha
    "MQTTClient::Disconnect::falha: Erro ao tentar se desconectar do broker em " uri res

/-- The statements of `Disconnect::sucesso` before `_res` is stored. -/
def Disconnect.sucesso.diagnostico (ctx : Objeto) : Option StdString := do
  let _disconnect ← staticCast program s .Disconnect ctx
  return literal "MQTTClient::Disconnect::sucesso: Desconectado de " ++ uri ++ literal "\n"

end Handlers

/-! ## Registrations -/

/-- A pointer to one of the static members that the client registers. -/
inductive Handler where
  | connectFalha
  | connectSucesso
  | connectPerdida
  | connectMensagemRecebida
  | subscribeFalha
  | subscribeSucesso
  | unsubscribeFalha
  | unsubscribeSucesso
  | disconnectFalha
  | disconnectSucesso
  deriving DecidableEq, Repr

/-- The arguments that follow the context in a call of a handler. -/
inductive Argumentos where
  | onFailure (res : Option FailureData)
  | onSuccess (res : SuccessData)
  | connectionLost (cause : Option String)
  | messageArrived
  deriving DecidableEq, Repr

/-- Run a handler up to its first lock.  A handler of another type than the
arguments has no meaning. -/
def Handler.run (program : Program) (s : State) (uri : StdString) (ctx : Objeto) :
    Handler → Argumentos → Option StdString
  | .connectFalha, .onFailure res => Connect.falha.diagnostico program s uri ctx res
  | .connectSucesso, .onSuccess _ => Connect.sucesso.diagnostico program s uri ctx
  | .connectPerdida, .connectionLost cause => Connect.perdida program s uri ctx cause
  | .connectMensagemRecebida, .messageArrived =>
      (Connect.mensagemRecebida.client program s ctx).map fun _ => []
  | .subscribeFalha, .onFailure res => Subscribe.falha.diagnostico program s uri ctx res
  | .subscribeSucesso, .onSuccess res => Subscribe.sucesso.diagnostico program s uri ctx res
  | .unsubscribeFalha, .onFailure res => Unsubscribe.falha.diagnostico program s uri ctx res
  | .unsubscribeSucesso, .onSuccess _ => Unsubscribe.sucesso.diagnostico program s ctx
  | .disconnectFalha, .onFailure res => Disconnect.falha.diagnostico program s uri ctx res
  | .disconnectSucesso, .onSuccess _ => Disconnect.sucesso.diagnostico program s uri ctx
  | _, _ => none

/-- The fields of the options that the constructors of the contexts fill in. -/
structure Opcoes where
  context : Objeto
  onFailure : Handler
  onSuccess : Handler
  deriving DecidableEq, Repr

/-- The call by which the library reports a completion. -/
def Opcoes.chamada (opcoes : Opcoes) : Completion → Handler × Objeto × Argumentos
  | .onFailure res => (opcoes.onFailure, opcoes.context, .onFailure res)
  | .onSuccess res => (opcoes.onSuccess, opcoes.context, .onSuccess res)

def Connect.opcoes : Opcoes where
  context := .contexto .conexao
  onFailure := .connectFalha
  onSuccess := .connectSucesso

def Subscribe.opcoes (c : CallId) : Opcoes where
  context := .contexto (.pedido c)
  onFailure := .subscribeFalha
  onSuccess := .subscribeSucesso

def Unsubscribe.opcoes (c : CallId) : Opcoes where
  context := .contexto (.pedido c)
  onFailure := .unsubscribeFalha
  onSuccess := .unsubscribeSucesso

def Disconnect.opcoes : Opcoes where
  context := .contexto .desconexao
  onFailure := .disconnectFalha
  onSuccess := .disconnectSucesso

/-- The options passed with the command of a call. -/
def opcoesDe : Operation → CallId → Opcoes
  | .conectar, _ => Connect.opcoes
  | .subscribe _, c => Subscribe.opcoes c
  | .unsubscribe _, c => Unsubscribe.opcoes c
  | .desconectar, _ => Disconnect.opcoes

/-- The arguments of `setCallbacks`: one context for both handlers. -/
structure Registro where
  context : Objeto
  connectionLost : Handler
  messageArrived : Handler
  deriving DecidableEq, Repr

/-- `_dll.setCallbacks(_client._handle, this, perdida, mensagemRecebida, NULL)`. -/
def Connect.registro : Registro where
  context := .contexto .conexao
  connectionLost := .connectPerdida
  messageArrived := .connectMensagemRecebida

/-! ## The client with the registrations kept by the library -/

/-- The client and what the library remembers of its registrations. -/
structure Sistema where
  estado : State
  registro : Option Registro
  opcoes : CallId → Option Opcoes

def Sistema.initial (callbackMap : CallbackMap) (conectado : Bool) : Sistema where
  estado := PahoClient.initial callbackMap conectado
  registro := none
  opcoes _ := none

/-- A step of the client and the library as before, or the loss of the
connection. -/
inductive Evento where
  | passo (label : Label)
  | perda (cause : Option String)
  deriving DecidableEq, Repr

/-- The callbacks registered after a step: `setCallbacks` replaces them when it
succeeds. -/
def registroApos (s : Sistema) : Label → Option Registro
  | .call c ret =>
      if s.estado.pc c = .setCallbacks ∧ ret = MQTTASYNC_SUCCESS then some Connect.registro
      else s.registro
  | _ => s.registro

/-- The options kept after a step: the library keeps those of the commands that
it accepts. -/
def opcoesApos (program : Program) (s : Sistema) : Label → CallId → Option Opcoes
  | .call c ret =>
      if s.estado.pc c = .command ∧ ret = MQTTASYNC_SUCCESS then
        Function.update s.opcoes c (some (opcoesDe (program.op c) c))
      else s.opcoes
  | _ => s.opcoes

/-- Messages arrive once a handler for them is registered. -/
def permitido (s : Sistema) : Label → Bool
  | .arrive _ => s.registro.isSome
  | _ => true

/-- The library reports a lost connection to the registered handler. -/
def eventStep (program : Program) : Step Sistema Evento
  | s, .passo label =>
      if permitido s label then
        (step program s.estado label).map fun t =>
          ⟨t, registroApos s label, opcoesApos program s label⟩
      else
        none
  | s, .perda _ =>
      if s.registro.isSome && s.estado.conectado then
        some { s with estado := { s.estado with conectado := false } }
      else
        none

/-- The events at which the library enters a handler. -/
def Evento.entersHandler : Evento → Bool
  | .passo label => label.entersCallback
  | .perda _ => true

/-- The handler that the library enters at an event, with its context and its
arguments. -/
def invocada (s : Sistema) : Evento → Option (Handler × Objeto × Argumentos)
  | .passo (.deliver c) =>
      match s.estado.request c with
      | .ready res => (s.opcoes c).map fun opcoes => opcoes.chamada res
      | _ => none
  | .passo (.arrive _) =>
      s.registro.map fun registro => (registro.messageArrived, registro.context, .messageArrived)
  | .perda cause =>
      s.registro.map fun registro =>
        (registro.connectionLost, registro.context, .connectionLost cause)
  | _ => none

end PahoClient
