import PahoClient.Client.Data
import PahoClient.Sync.RWLock

/-!
# State of one client and of the library below it

Every call of the public interface has its own identity and its own program
counter; any number of application threads is any assignment of operations to
identities.  The library side of a call is the progress of the one command that
the call may issue.  Runs of `mensagemRecebida` are identified separately.
-/

namespace PahoClient

open PahoClient.Sync

/-- A call of `conectar`, `subscribe`, `unsubscribe` or `desconectar`. -/
abbrev CallId := Nat

/-- One invocation of `mensagemRecebida` by the library. -/
abbrev MsgId := Nat

/-- What the threads of the application and the library's network do: the
operation of each call and the topic storage of each delivered message. -/
structure Program where
  op : CallId → Operation
  topico : MsgId → List UInt8

/-- The key that `mensagemRecebida` looks up for a message. -/
def Program.chave (program : Program) (m : MsgId) : StdString :=
  StdString.ofCString (program.topico m)

/-! ## Program counters -/

/-- The three loops over `_callback_map` run by the calling thread. -/
inductive Laco where
  | inserir
  | desfazer
  | apagar
  deriving DecidableEq, Repr

/-- The next statement of a call.  `wait` stands for the `esperar` frame:
`waitLock` is about to take `_finalizada_mtx`, `waitTest` evaluates the
predicate, `waiting` is blocked in `_finalizada_cv.wait`, and `waitUnlock`
leaves the frame with its result. -/
inductive Pc where
  | idle
  | testVazio
  | lockConexao
  | testConectado
  | setCallbacks
  | command
  | acquire (laco : Laco)
  | loop (laco : Laco)
  | release (laco : Laco)
  | waitLock
  | waitTest
  | waiting
  | waitUnlock (res : Bool)
  | unlockConexao (res : Bool)
  | returned (res : Bool)
  deriving DecidableEq, Repr

/-- The next statement of a completion handler.  The last four are the body of
`notificar_um`. -/
inductive HandlerPc where
  | start
  | acquire
  | loop
  | release
  | store (res : Bool)
  | lock
  | mark
  | notify
  | unlock
  deriving DecidableEq, Repr

/-- The library's view of the command of a call: not issued, rejected on the
spot, accepted, finished but not yet reported, being reported, reported. -/
inductive Request where
  | unissued
  | rejected (ret : Int)
  | pending
  | ready (res : Completion)
  | running (res : Completion) (pc : HandlerPc)
  | done (res : Completion)
  deriving DecidableEq, Repr

/-- The next statement of a run of `mensagemRecebida`. -/
inductive MessagePc where
  | idle
  | acquire
  | lookup
  | release
  | call
  | inside
  | test
  | freeMessage
  | free
  | finished
  deriving DecidableEq, Repr

/-- A run of `mensagemRecebida` with its local variables. -/
structure Delivery where
  pc : MessagePc
  callback : Callback
  ret : Int
  deriving DecidableEq, Repr

/-! ## Contexts -/

/-- A thread that can hold a lock. -/
inductive Agent where
  | call (c : CallId)
  | handler (c : CallId)
  | message (m : MsgId)
  deriving DecidableEq, Repr

/-- The objects of class `Contexto`: the two members of the client and the
temporaries of the subscribe and unsubscribe calls. -/
inductive ContextId where
  | conexao
  | desconexao
  | pedido (c : CallId)
  deriving DecidableEq, Repr

/-- `MQTTClient::Contexto`.  A condition variable is the list of the threads
blocked on it. -/
structure Contexto where
  res : Bool
  finalizada : Bool
  finalizadaMtx : Option Agent
  finalizadaCv : List CallId
  deriving DecidableEq, Repr

/-- A freshly constructed context. -/
def Contexto.new : Contexto :=
  ⟨false, false, none, []⟩

/-- The context through which a call waits for its completion. -/
def contextOf : Operation → CallId → ContextId
  | .conectar, _ => .conexao
  | .desconectar, _ => .desconexao
  | .subscribe _, c | .unsubscribe _, c => .pedido c

/-! ## Global state -/

/-- The members of `MQTTClient` that change, the connection state of the
library, the progress of every call, command and message, and the callbacks
that the library is running. -/
structure State where
  conexaoMtx : Option CallId
  primeiraTentativa : Bool
  contexto : ContextId → Contexto
  callbackMap : CallbackMap
  callbackMapSlock : RWLock Agent
  conectado : Bool
  pc : CallId → Pc
  request : CallId → Request
  delivery : MsgId → Delivery
  active : List Agent

/-- A client that no thread has used yet, over a given callback table. -/
def initial (callbackMap : CallbackMap) (conectado : Bool) : State where
  conexaoMtx := none
  primeiraTentativa := true
  contexto := fun _ => Contexto.new
  callbackMap := callbackMap
  callbackMapSlock := RWLock.free
  conectado := conectado
  pc := fun _ => .idle
  request := fun _ => .unissued
  delivery := fun _ => ⟨.idle, Callback.null, 1⟩
  active := []

namespace State

def setPc (s : State) (c : CallId) (pc : Pc) : State :=
  { s with pc := Function.update s.pc c pc }

def setRequest (s : State) (c : CallId) (request : Request) : State :=
  { s with request := Function.update s.request c request }

def setContexto (s : State) (x : ContextId) (contexto : Contexto) : State :=
  { s with contexto := Function.update s.contexto x contexto }

def setDelivery (s : State) (m : MsgId) (delivery : Delivery) : State :=
  { s with delivery := Function.update s.delivery m delivery }

end State

/-- A step of the system.  `call` and `message` carry the value returned by
the library function or the callback that the statement invokes, if any. -/
inductive Label where
  | start (c : CallId)
  | call (c : CallId) (ret : Int)
  | wake (c : CallId)
  | complete (c : CallId) (res : Completion)
  | deliver (c : CallId)
  | handler (c : CallId)
  | arrive (m : MsgId)
  | message (m : MsgId) (ret : Int)
  | network (conectado : Bool)
  deriving DecidableEq, Repr

end PahoClient
