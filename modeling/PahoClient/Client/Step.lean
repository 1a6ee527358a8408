import PahoClient.Client.State
import PahoClient.Transition.Run

/-!
# The statements of the client

Each method of the client is a partial function of the current state that
executes the statement its program counter points at.  A blocked statement is
refused.  Between two statements of one thread any other thread may run, except
that a loop over `_callback_map` is one statement: it runs inside the exclusive
section of the lock that every other access to the table takes.
-/

namespace PahoClient

open PahoClient.Sync
open PahoClient.Transition

/-! ## Statements shared by the four operations -/

/-- Continue at `pc` without touching shared data. -/
def goto (c : CallId) (pc : Pc) (s : State) : Option State :=
  some (s.setPc c pc)

/-- `std::lock_guard<std::mutex> lock(_client._conexao_mtx)`. -/
def lockConexao (c : CallId) (next : Pc) (s : State) : Option State :=
  if s.conexaoMtx = none then
    some ({ s with conexaoMtx := some c }.setPc c next)
  else
    none

/-- The destructor of the guard, after the returned value is known. -/
def unlockConexao (c : CallId) (res : Bool) (s : State) : Option State :=
  some ({ s with conexaoMtx := none }.setPc c (.returned res))

/-- Hand the command of the call to the library, which returns `ret`. -/
def issue (c : CallId) (ret : Int) (accepted rejected : Pc) (s : State) : Option State :=
  if ret = MQTTASYNC_SUCCESS then
    some ((s.setRequest c .pending).setPc c accepted)
  else
    some ((s.setRequest c (.rejected ret)).setPc c rejected)

/-- `AcquireSRWLockExclusive(&_client._callback_map_slock)`. -/
def acquireMap (c : CallId) (next : Pc) (s : State) : Option State :=
  (s.callbackMapSlock.acquireExclusive (.call c)).map fun lock =>
    { s with callbackMapSlock := lock }.setPc c next

/-- One of the loops over `_callback_map`. -/
def updateMap (c : CallId) (update : CallbackMap → CallbackMap) (next : Pc) (s : State) :
    Option State :=
  some ({ s with callbackMap := update s.callbackMap }.setPc c next)

/-- `ReleaseSRWLockExclusive(&_client._callback_map_slock)`. -/
def releaseMap (c : CallId) (next : Pc) (s : State) : Option State :=
  some ({ s with callbackMapSlock := s.callbackMapSlock.releaseExclusive }.setPc c next)

/-! ## Waiting and notifying -/

/-- `Contexto::esperar`: the predicate form of `wait`, the reset of the flag and
the read of `_res` under the mutex.  A woken thread takes the mutex again before
it tests the predicate. -/
def Contexto.esperar (x : ContextId) (after : Bool → Pc) (c : CallId) (s : State) :
    Option State :=
  match s.pc c with
  | .waitLock =>
      if (s.contexto x).finalizadaMtx = none then
        some ((s.setContexto x { s.contexto x with
          finalizadaMtx := some (.call c) }).setPc c .waitTest)
      else
        none
  | .waitTest =>
      if (s.contexto x).finalizada then
        some ((s.setContexto x { s.contexto x with
          finalizada := false }).setPc c (.waitUnlock (s.contexto x).res))
      else
        some ((s.setContexto x { s.contexto x with
          finalizadaMtx := none
          finalizadaCv := (s.contexto x).finalizadaCv ++ [c] }).setPc c .waiting)
  | .waiting =>
      if c ∈ (s.contexto x).finalizadaCv then none else some (s.setPc c .waitLock)
  | .waitUnlock res =>
      some ((s.setContexto x { s.contexto x with
        finalizadaMtx := none }).setPc c (after res))
  | _ => none

/-- A spurious wake-up removes a thread from the condition variable. -/
def Contexto.acordar (x : ContextId) (c : CallId) (s : State) : Option State :=
  if c ∈ (s.contexto x).finalizadaCv then
    some (s.setContexto x { s.contexto x with
      finalizadaCv := (s.contexto x).finalizadaCv.erase c })
  else
    none

/-- `Contexto::notificar_um`, run by the completion handler of the command of
`c`.  The handler returns to the library when the guard is released. -/
def Contexto.notificarUm (x : ContextId) (c : CallId) (res : Completion) (pc : HandlerPc)
    (s : State) : Option State :=
  match pc with
  | .lock =>
      if (s.contexto x).finalizadaMtx = none then
        some ((s.setContexto x { s.contexto x with
          finalizadaMtx := some (.handler c) }).setRequest c (.running res .mark))
      else
        none
  | .mark =>
      some ((s.setContexto x { s.contexto x with
        finalizada := true }).setRequest c (.running res .notify))
  | .notify =>
      some ((s.setContexto x { s.contexto x with
        finalizadaCv := (s.contexto x).finalizadaCv.tail }).setRequest c (.running res .unlock))
  | .unlock =>
      some (({ s with active := s.active.erase (.handler c) }.setContexto x
        { s.contexto x with finalizadaMtx := none }).setRequest c (.done res))
  | _ => none

/-! ## Calls -/

/-- `Connect::despachar`. -/
def Connect.despachar (c : CallId) (ret : Int) (s : State) : Option State :=
  match s.pc c with
  | .lockConexao => lockConexao c .testConectado s
  | .testConectado =>
      if s.conectado then goto c (.unlockConexao true) s
      else if s.primeiraTentativa then goto c .setCallbacks s
      else goto c .command s
  | .setCallbacks =>
      if ret = MQTTASYNC_SUCCESS then goto c .command { s with primeiraTentativa := false }
      else goto c (.unlockConexao false) s
  | .command => issue c ret .waitLock (.unlockConexao false) s
  | .unlockConexao res => unlockConexao c res s
  | _ => Contexto.esperar .conexao .unlockConexao c s

/-- `Subscribe::despachar`. -/
def Subscribe.despachar (args : Subscribe.Args) (c : CallId) (ret : Int) (s : State) :
    Option State :=
  match s.pc c with
  | .testVazio => goto c (if args.topicos.isEmpty then .returned false else .acquire .inserir) s
  | .acquire .inserir => acquireMap c (.loop .inserir) s
  | .loop .inserir => updateMap c (Subscribe.inserir args) (.release .inserir) s
  | .release .inserir => releaseMap c .command s
  | .command => issue c ret .waitLock (.acquire .desfazer) s
  | .acquire .desfazer => acquireMap c (.loop .desfazer) s
  | .loop .desfazer => updateMap c (Subscribe.desfazer args) (.release .desfazer) s
  | .release .desfazer => releaseMap c (.returned false) s
  | _ => Contexto.esperar (.pedido c) .returned c s

/-- `Unsubscribe::despachar`. -/
def Unsubscribe.despachar (topicos : List StdString) (c : CallId) (ret : Int) (s : State) :
    Option State :=
  match s.pc c with
  | .command => issue c ret (.acquire .apagar) (.returned false) s
  | .acquire .apagar => acquireMap c (.loop .apagar) s
  | .loop .apagar => updateMap c (Unsubscribe.apagar topicos) (.release .apagar) s
  | .release .apagar => releaseMap c .waitLock s
  | _ => Contexto.esperar (.pedido c) .returned c s

/-- `Disconnect::despachar`: the connection is tested before the mutex is
taken. -/
def Disconnect.despachar (c : CallId) (ret : Int) (s : State) : Option State :=
  match s.pc c with
  | .testConectado => goto c (if s.conectado then .lockConexao else .returned true) s
  | .lockConexao => lockConexao c .command s
  | .command => issue c ret .waitLock (.unlockConexao false) s
  | .unlockConexao res => unlockConexao c res s
  | _ => Contexto.esperar .desconexao .unlockConexao c s

/-- The next statement of a call. -/
def despachar : Operation → CallId → Int → State → Option State
  | .conectar => Connect.despachar
  | .subscribe args => Subscribe.despachar args
  | .unsubscribe topicos => Unsubscribe.despachar topicos
  | .desconectar => Disconnect.despachar

/-- The first statement of a call. -/
def entry : Operation → Pc
  | .conectar => .lockConexao
  | .subscribe _ => .testVazio
  | .unsubscribe _ => .command
  | .desconectar => .testConectado

/-! ## Completion handlers

A handler is given by the first statement after its diagnostics.  Those that
roll the registration back run the erasure loop under the exclusive lock and
then store `false`; every handler ends by storing `_res` and calling
`notificar_um`. -/

def Connect.falha : HandlerPc :=
  .store false

def Connect.sucesso : HandlerPc :=
  .store true

def Subscribe.falha : HandlerPc :=
  .acquire

def Subscribe.sucesso (args : Subscribe.Args) (res : SuccessData) : HandlerPc :=
  if Subscribe.recusado args res then .acquire else .store true

def Unsubscribe.falha : HandlerPc :=
  .store false

def Unsubscribe.sucesso : HandlerPc :=
  .store true

def Disconnect.falha : HandlerPc :=
  .store false

def Disconnect.sucesso : HandlerPc :=
  .store true

/-- The handler that the options of the operation register for a completion. -/
def handlerOf : Operation → Completion → HandlerPc
  | .conectar, .onFailure _ => Connect.falha
  | .conectar, .onSuccess _ => Connect.sucesso
  | .subscribe _, .onFailure _ => Subscribe.falha
  | .subscribe args, .onSuccess res => Subscribe.sucesso args res
  | .unsubscribe _, .onFailure _ => Unsubscribe.falha
  | .unsubscribe _, .onSuccess _ => Unsubscribe.sucesso
  | .desconectar, .onFailure _ => Disconnect.falha
  | .desconectar, .onSuccess _ => Disconnect.sucesso

/-- The erasure loop of a handler. -/
def handlerLoop : Operation → CallbackMap → CallbackMap
  | .subscribe args => Subscribe.desfazer args
  | .conectar | .unsubscribe _ | .desconectar => id

/-- The next statement of the handler of the command of `c`. -/
def handle (op : Operation) (c : CallId) (res : Completion) (pc : HandlerPc) (s : State) :
    Option State :=
  match pc with
  | .start => some (s.setRequest c (.running res (handlerOf op res)))
  | .acquire =>
      (s.callbackMapSlock.acquireExclusive (.handler c)).map fun lock =>
        { s with callbackMapSlock := lock }.setRequest c (.running res .loop)
  | .loop =>
      some ({ s with callbackMap := handlerLoop op s.callbackMap }.setRequest c
        (.running res .release))
  | .release =>
      some ({ s with callbackMapSlock := s.callbackMapSlock.releaseExclusive }.setRequest c
        (.running res (.store false)))
  | .store value =>
      some ((s.setContexto (contextOf op c) { s.contexto (contextOf op c) with
        res := value }).setRequest c (.running res .lock))
  | _ => Contexto.notificarUm (contextOf op c) c res pc s

/-! ## Messages -/

/-- Return from `mensagemRecebida` to the library. -/
def finishMessage (m : MsgId) (s : State) : State :=
  { s with active := s.active.erase (.message m) }.setDelivery m
    { s.delivery m with pc := .finished }

/-- `Connect::mensagemRecebida`.  The callback pointer is copied under the shared
lock and called after the lock is released. -/
def Connect.mensagemRecebida (chave : StdString) (m : MsgId) (ret : Int) (s : State) :
    Option State :=
  match (s.delivery m).pc with
  | .acquire =>
      (s.callbackMapSlock.acquireShared (.message m)).map fun lock =>
        { s with callbackMapSlock := lock }.setDelivery m { s.delivery m with pc := .lookup }
  | .lookup =>
      some (s.setDelivery m { s.delivery m with
        pc := .release
        callback := (s.callbackMap chave).getD Callback.null })
  | .release =>
      some ({ s with
        callbackMapSlock := s.callbackMapSlock.releaseShared (.message m) }.setDelivery m
          { s.delivery m with pc := .call })
  | .call =>
      if (s.delivery m).callback = Callback.null then
        some (s.setDelivery m { s.delivery m with pc := .test })
      else
        some (s.setDelivery m { s.delivery m with pc := .inside })
  | .inside => some (s.setDelivery m { s.delivery m with pc := .test, ret := ret })
  | .test =>
      if (s.delivery m).ret = 1 then
        some (s.setDelivery m { s.delivery m with pc := .freeMessage })
      else
        some (finishMessage m s)
  | .freeMessage => some (s.setDelivery m { s.delivery m with pc := .free })
  | .free => some (finishMessage m s)
  | _ => none

/-! ## The transition system -/

/-- The connection state after the library finishes a command. -/
def conectadoAfter : Operation → Completion → Bool → Bool
  | .conectar, .onSuccess _, _ => true
  | .desconectar, .onSuccess _, _ => false
  | _, _, conectado => conectado

/-- One step of a client, its callers and the library.  The library finishes
each accepted command once and then reports it once. -/
def step (program : Program) : Step State Label
  | s, .start c => if s.pc c = .idle then goto c (entry (program.op c)) s else none
  | s, .call c ret => despachar (program.op c) c ret s
  | s, .wake c => Contexto.acordar (contextOf (program.op c) c) c s
  | s, .complete c res =>
      if s.request c = .pending ∧ (program.op c).answers res = true then
        some ({ s with conectado := conectadoAfter (program.op c) res s.conectado }.setRequest c
          (.ready res))
      else
        none
  | s, .deliver c =>
      match s.request c with
      | .ready res =>
          some ({ s with active := .handler c :: s.active }.setRequest c (.running res .start))
      | _ => none
  | s, .handler c =>
      match s.request c with
      | .running res pc => handle (program.op c) c res pc s
      | _ => none
  | s, .arrive m =>
      if (s.delivery m).pc = .idle then
        some ({ s with active := .message m :: s.active }.setDelivery m
          { s.delivery m with pc := .acquire })
      else
        none
  | s, .message m ret => Connect.mensagemRecebida (program.chave m) m ret s
  | s, .network conectado => some { s with conectado := conectado }

/-- The steps at which the library enters a callback. -/
def Label.entersCallback : Label → Bool
  | .deliver _ | .arrive _ => true
  | _ => false

/-- The transition system in which the library runs its callbacks one at a
time. -/
def serialStep (program : Program) : Step State Label := fun s label =>
  if label.entersCallback && !s.active.isEmpty then none else step program s label

theorem step_of_serialStep {program : Program} {s t : State} {label : Label}
    (serial : serialStep program s label = some t) : step program s label = some t := by
  unfold serialStep at serial
  split at serial
  · contradiction
  · exact serial

end PahoClient
