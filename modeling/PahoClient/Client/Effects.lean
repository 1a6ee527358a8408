import PahoClient.Client.Preservation

/-!
# What one step can change

Later proofs about histories read these lemmas instead of the definitions of
the statements: who moves, how the command of a call advances, and which loop
changes the callback table.
-/

namespace PahoClient

open PahoClient.Sync
open PahoClient.Transition

/-- If the event is a statement of a call, the call passes the test before it. -/
def atCalls (test : CallId → State → Bool) (event : Event State Label) : Bool :=
  match event.label with
  | .call c _ => test c event.source
  | _ => true

/-- Where the command of a call stands after the next statement of its
handler. -/
def handlerNext (op : Operation) (res : Completion) : HandlerPc → Request
  | .start => .running res (handlerOf op res)
  | .acquire => .running res .loop
  | .loop => .running res .release
  | .release => .running res (.store false)
  | .store _ => .running res .lock
  | .lock => .running res .mark
  | .mark => .running res .notify
  | .notify => .running res .unlock
  | .unlock => .done res

/-- The completion that the library has produced for a command. -/
def Request.completion : Request → Option Completion
  | ready res | running res _ | done res => some res
  | unissued | rejected _ | pending => none

theorem completion_handlerNext (op : Operation) (res : Completion) (pc : HandlerPc) :
    (handlerNext op res pc).completion = some res := by
  cases pc <;> rfl

/-- The table after a loop of the calling thread. -/
def callLoop : Operation → Laco → CallbackMap → CallbackMap
  | .subscribe args, .inserir => Subscribe.inserir args
  | .subscribe args, .desfazer => Subscribe.desfazer args
  | .unsubscribe topicos, .apagar => Unsubscribe.apagar topicos
  | _, _ => id

/-- The call is inside its `esperar` frame. -/
def Pc.inFrame : Pc → Bool
  | waitLock | waitTest | waiting | waitUnlock _ => true
  | _ => false

/-- The position after a statement of `esperar`. -/
def waitNext (after : Bool → Pc) (x : Contexto) : Pc → Pc
  | .waitLock => .waitTest
  | .waitTest => if x.finalizada then .waitUnlock x.res else .waiting
  | .waiting => .waitLock
  | .waitUnlock res => after res
  | pc => pc

/-- The position of a call after its next statement. -/
def callNext (op : Operation) (c : CallId) (ret : Int) (s : State) : Pc :=
  match op, s.pc c with
  | .conectar, .lockConexao => .testConectado
  | .conectar, .testConectado =>
      if s.conectado then .unlockConexao true
      else if s.primeiraTentativa then .setCallbacks else .command
  | .conectar, .setCallbacks =>
      if ret = MQTTASYNC_SUCCESS then .command else .unlockConexao false
  | .subscribe args, .testVazio =>
      if args.topicos.isEmpty then .returned false else .acquire .inserir
  | .subscribe _, .command => if ret = MQTTASYNC_SUCCESS then .waitLock else .acquire .desfazer
  | .subscribe _, .release .inserir => .command
  | .subscribe _, .release .desfazer => .returned false
  | .unsubscribe _, .command =>
      if ret = MQTTASYNC_SUCCESS then .acquire .apagar else .returned false
  | .unsubscribe _, .release .apagar => .waitLock
  | .desconectar, .testConectado => if s.conectado then .lockConexao else .returned true
  | .desconectar, .lockConexao => .command
  | .conectar, .command | .desconectar, .command =>
      if ret = MQTTASYNC_SUCCESS then .waitLock else .unlockConexao false
  | .conectar, .unlockConexao res | .desconectar, .unlockConexao res => .returned res
  | .subscribe _, .acquire laco | .unsubscribe _, .acquire laco => .loop laco
  | .subscribe _, .loop laco | .unsubscribe _, .loop laco => .release laco
  | .conectar, pc => waitNext .unlockConexao (s.contexto .conexao) pc
  | .desconectar, pc => waitNext .unlockConexao (s.contexto .desconexao) pc
  | .subscribe _, pc | .unsubscribe _, pc => waitNext .returned (s.contexto (.pedido c)) pc

/-- The statement only moves its call, or writes `_conexao_mtx` or a context. -/
def Pc.plain : Pc → Bool
  | command | setCallbacks | acquire _ | loop _ | release _ => false
  | _ => true

/-- The call is inside an exclusive section of the table. -/
def Pc.writesMap : Pc → Bool
  | loop _ | release _ => true
  | _ => false

theorem Pc.writesMap_of_plain {pc : Pc} (plain : pc.plain = true) : pc.writesMap = false := by
  cases pc with
  | loop | release => cases plain
  | _ => rfl

/-- The threads blocked on the condition variable of a context. -/
def State.fila (s : State) (x : ContextId) : List CallId :=
  (s.contexto x).finalizadaCv

/-- The call clears `_primeira_tentativa`: the library accepts its callbacks. -/
def clears (op : Operation) (pc : Pc) (ret : Int) : Prop :=
  op = .conectar ∧ pc = .setCallbacks ∧ ret = MQTTASYNC_SUCCESS

/-- The extent of one statement of a call: it moves that call only, issues at
most its own command, changes the table only in one of its loops, uses the lock
of the table as its position says, clears `_primeira_tentativa` only when its
callbacks are accepted, and queues itself only when it tests its predicate. -/
structure CallEffect (op : Operation) (c : CallId) (ret : Int) (s t : State) : Prop where
  pc : t.pc = Function.update s.pc c (callNext op c ret s)
  request : t.request = if s.pc c = .command then
      Function.update s.request c (if ret = MQTTASYNC_SUCCESS then .pending else .rejected ret)
    else s.request
  outside : (∀ laco, s.pc c ≠ .loop laco) → t.callbackMap = s.callbackMap
  loop : ∀ laco, s.pc c = .loop laco → t.callbackMap = callLoop op laco s.callbackMap
  slock : RWLock.Use (Agent.call c) s.callbackMapSlock t.callbackMapSlock (s.pc c).writesMap
    (callNext op c ret s).writesMap false false
  primeiraTentativa : t.primeiraTentativa = s.primeiraTentativa ∧ ¬ clears op (s.pc c) ret ∨
    t.primeiraTentativa = false ∧ clears op (s.pc c) ret
  fila : ∀ y, t.fila y = s.fila y ∨
    y = contextOf op c ∧ s.pc c = .waitTest ∧ t.fila y = s.fila y ++ [c]
  conectado : t.conectado = s.conectado
  delivery : t.delivery = s.delivery
  active : t.active = s.active

section Calls

variable {program : Program} {s t : State} {op : Operation} {c : CallId} {ret : Int}

/-- A statement that only moves its call from a position outside the sections to
another one, or writes `_conexao_mtx` or contexts besides. -/
theorem CallEffect.of_move {pc : Pc} (next : callNext op c ret s = pc)
    (position : (s.pc c).plain = true ∨ s.pc c = .setCallbacks ∧ ret ≠ MQTTASYNC_SUCCESS)
    (outside : pc.writesMap = false) {conexaoMtx : Option CallId}
    {contexto : ContextId → Contexto}
    (fila : ∀ y, (contexto y).finalizadaCv = s.fila y ∨
      y = contextOf op c ∧ s.pc c = .waitTest ∧ (contexto y).finalizadaCv = s.fila y ++ [c]) :
    CallEffect op c ret s
      ({ s with conexaoMtx := conexaoMtx, contexto := contexto }.setPc c pc) := by
  have elsewhere : s.pc c ≠ .command ∧ (∀ laco, s.pc c ≠ .loop laco) ∧
      (s.pc c).writesMap = false ∧ ¬ clears op (s.pc c) ret := by
    rcases position with plain | ⟨setting, refused⟩
    · refine ⟨?_, ?_, Pc.writesMap_of_plain plain, ?_⟩
      · intro command
        rw [command] at plain
        cases plain
      · intro laco loops
        rw [loops] at plain
        cases plain
      · rintro ⟨_, setting, _⟩
        rw [setting] at plain
        cases plain
    · simp [setting, Pc.writesMap, clears, refused]
  obtain ⟨notCommand, notLoop, notWriting, notClearing⟩ := elsewhere
  exact {
    pc := by
      rw [next]
      rfl
    request := by
      rw [if_neg notCommand]
      rfl
    outside := fun _ => rfl
    loop := fun laco loops => absurd loops (notLoop laco)
    slock := by
      rw [next, outside, notWriting]
      exact .none rfl
    primeiraTentativa := Or.inl ⟨rfl, notClearing⟩
    fila := fila
    conectado := rfl
    delivery := rfl
    active := rfl }

theorem goto_effect {pc : Pc} (executed : goto c pc s = some t)
    (next : callNext op c ret s = pc)
    (position : (s.pc c).plain = true ∨ s.pc c = .setCallbacks ∧ ret ≠ MQTTASYNC_SUCCESS)
    (outside : pc.writesMap = false) : CallEffect op c ret s t := by
  cases executed
  exact .of_move next position outside fun _ => Or.inl rfl

theorem lockConexao_effect {pc : Pc} (executed : lockConexao c pc s = some t)
    (next : callNext op c ret s = pc) (plain : (s.pc c).plain = true)
    (outside : pc.writesMap = false) : CallEffect op c ret s t := by
  unfold lockConexao at executed
  split at executed
  · cases executed
    exact .of_move next (Or.inl plain) outside fun _ => Or.inl rfl
  · cases executed

theorem unlockConexao_effect {value : Bool} (executed : unlockConexao c value s = some t)
    (next : callNext op c ret s = .returned value) (plain : (s.pc c).plain = true) :
    CallEffect op c ret s t := by
  cases executed
  exact .of_move next (Or.inl plain) rfl fun _ => Or.inl rfl

/-- The callbacks are accepted. -/
theorem setCallbacks_effect
    (executed : goto c .command { s with primeiraTentativa := false } = some t)
    (clearing : clears op (s.pc c) ret) (next : callNext op c ret s = .command) :
    CallEffect op c ret s t := by
  cases executed
  have pc := clearing.2.1
  exact {
    pc := by
      rw [next]
      rfl
    request := by
      rw [pc]
      rfl
    outside := fun _ => rfl
    loop := by simp [pc]
    slock := by
      rw [next, pc]
      exact .none rfl
    primeiraTentativa := Or.inr ⟨rfl, clearing⟩
    fila := fun _ => Or.inl rfl
    conectado := rfl
    delivery := rfl
    active := rfl }

/-- The command is handed to the library. -/
theorem CallEffect.of_issue {pc : Pc} {request : Request} (command : s.pc c = .command)
    (next : callNext op c ret s = pc) (outside : pc.writesMap = false)
    (answer : (if ret = MQTTASYNC_SUCCESS then .pending else .rejected ret) = request) :
    CallEffect op c ret s ((s.setRequest c request).setPc c pc) where
  pc := by
    rw [next]
    rfl
  request := by
    rw [if_pos command, answer]
    rfl
  outside _ := rfl
  loop laco loops := by
    rw [command] at loops
    cases loops
  slock := by
    rw [next, command, outside]
    exact .none rfl
  primeiraTentativa := Or.inl ⟨rfl, by simp [clears, command]⟩
  fila _ := Or.inl rfl
  conectado := rfl
  delivery := rfl
  active := rfl

theorem issue_effect {accepted rejected : Pc} (pc : s.pc c = .command)
    (executed : issue c ret accepted rejected s = some t)
    (next : callNext op c ret s = if ret = MQTTASYNC_SUCCESS then accepted else rejected)
    (acceptedOutside : accepted.writesMap = false)
    (rejectedOutside : rejected.writesMap = false) : CallEffect op c ret s t := by
  unfold issue at executed
  split at executed <;> cases executed
  · rename_i success
    exact .of_issue pc (next.trans (if_pos success)) acceptedOutside (if_pos success)
  · rename_i failure
    exact .of_issue pc (next.trans (if_neg failure)) rejectedOutside (if_neg failure)

/-- A statement of one of the loops, or of the section around it. -/
theorem CallEffect.of_map {pc : Pc} {map : CallbackMap} {lock : RWLock Agent}
    (next : callNext op c ret s = pc)
    (position : ∃ laco, s.pc c = .acquire laco ∨ s.pc c = .loop laco ∨ s.pc c = .release laco)
    (outside : (∀ laco, s.pc c ≠ .loop laco) → map = s.callbackMap)
    (loop : ∀ laco, s.pc c = .loop laco → map = callLoop op laco s.callbackMap)
    (slock : RWLock.Use (Agent.call c) s.callbackMapSlock lock (s.pc c).writesMap pc.writesMap
      false false) :
    CallEffect op c ret s
      ({ s with callbackMap := map, callbackMapSlock := lock }.setPc c pc) := by
  have elsewhere : s.pc c ≠ .command ∧ s.pc c ≠ .setCallbacks := by
    obtain ⟨laco, acquiring | looping | releasing⟩ := position
    · simp [acquiring]
    · simp [looping]
    · simp [releasing]
  exact {
    pc := by
      rw [next]
      rfl
    request := by
      rw [if_neg elsewhere.1]
      rfl
    outside := outside
    loop := loop
    slock := by
      rw [next]
      exact slock
    primeiraTentativa := Or.inl ⟨rfl, fun clearing => elsewhere.2 clearing.2.1⟩
    fila := fun _ => Or.inl rfl
    conectado := rfl
    delivery := rfl
    active := rfl }

theorem acquireMap_effect {laco : Laco} (pc : s.pc c = .acquire laco)
    (executed : acquireMap c (.loop laco) s = some t)
    (next : callNext op c ret s = .loop laco) : CallEffect op c ret s t := by
  obtain ⟨lock, acquired, rfl⟩ := Option.map_eq_some_iff.mp executed
  refine .of_map next ⟨laco, Or.inl pc⟩ (fun _ => rfl) (by simp [pc]) ?_
  rw [pc]
  exact .acquireExclusive acquired

theorem updateMap_effect {laco : Laco} (pc : s.pc c = .loop laco)
    (executed : updateMap c (callLoop op laco) (.release laco) s = some t)
    (next : callNext op c ret s = .release laco) : CallEffect op c ret s t := by
  cases executed
  refine .of_map next ⟨laco, Or.inr (Or.inl pc)⟩ (fun outside => absurd pc (outside laco)) ?_ ?_
  · intro other loops
    cases pc.symm.trans loops
    rfl
  · rw [pc]
    exact .none rfl

theorem releaseMap_effect {laco : Laco} {after : Pc} (pc : s.pc c = .release laco)
    (executed : releaseMap c after s = some t) (next : callNext op c ret s = after)
    (outside : after.writesMap = false) : CallEffect op c ret s t := by
  cases executed
  refine .of_map next ⟨laco, Or.inr (Or.inr pc)⟩ (fun _ => rfl) (by simp [pc]) ?_
  rw [pc, outside]
  exact .releaseExclusive rfl

/-- Inside `esperar` all operations continue alike. -/
theorem callNext_of_inFrame (op : Operation) (c : CallId) (ret : Int) (s : State)
    (frame : (s.pc c).inFrame = true) :
    callNext op c ret s =
      waitNext (if op.usesConexao then .unlockConexao else .returned)
        (s.contexto (contextOf op c)) (s.pc c) := by
  cases op <;> cases pc : s.pc c <;>
    simp_all [callNext, contextOf, Operation.usesConexao, Pc.inFrame]

theorem fila_setContexto (s : State) (x y : ContextId) (contexto : Contexto) :
    (s.setContexto x contexto).fila y = if y = x then contexto.finalizadaCv else s.fila y := by
  by_cases same : y = x
  · subst y
    simp [State.fila, State.setContexto]
  · simp [State.fila, State.setContexto, same]

/-- Storing a context with the same queue leaves every queue alone. -/
theorem fila_of_same (s : State) (x y : ContextId) {contexto : Contexto}
    (same : contexto.finalizadaCv = s.fila x) : (s.setContexto x contexto).fila y = s.fila y := by
  rw [fila_setContexto]
  split
  · rename_i equal
    rw [equal, same]
  · rfl

theorem esperar_effect {after : Bool → Pc}
    (executed : Contexto.esperar (contextOf op c) after c s = some t)
    (afterEq : after = if op.usesConexao then .unlockConexao else .returned) :
    CallEffect op c ret s t := by
  have next := callNext_of_inFrame op c ret s
  rw [← afterEq] at next
  unfold Contexto.esperar at executed
  split at executed
  case h_1 pc =>
      split at executed <;> cases executed
      rw [pc] at next
      exact .of_move (next rfl) (Or.inl (by rw [pc]; rfl)) rfl
        fun y => Or.inl (fila_of_same s _ y rfl)
  case h_2 pc =>
      rw [pc] at next
      split at executed <;> cases executed
      case isTrue set =>
          exact .of_move (by rw [next rfl, waitNext, if_pos set]) (Or.inl (by rw [pc]; rfl)) rfl
            fun y => Or.inl (fila_of_same s _ y rfl)
      case isFalse clear =>
          refine .of_move (by rw [next rfl, waitNext, if_neg clear]) (Or.inl (by rw [pc]; rfl))
            rfl ?_
          intro y
          by_cases same : y = contextOf op c
          · subst y
            exact Or.inr ⟨rfl, pc, (fila_setContexto s _ _ _).trans (if_pos rfl)⟩
          · exact Or.inl ((fila_setContexto s _ y _).trans (if_neg same))
  case h_3 pc =>
      split at executed <;> cases executed
      rw [pc] at next
      exact .of_move (next rfl) (Or.inl (by rw [pc]; rfl)) rfl fun _ => Or.inl rfl
  case h_4 res pc =>
      cases executed
      rw [pc] at next
      refine .of_move (next rfl) (Or.inl (by rw [pc]; rfl)) ?_
        fun y => Or.inl (fila_of_same s _ y rfl)
      rw [afterEq]
      split <;> rfl
  case h_5 => cases executed

theorem despachar_effect (executed : despachar op c ret s = some t) :
    CallEffect op c ret s t := by
  cases op with
  | conectar =>
      simp only [despachar, Connect.despachar] at executed
      split at executed
      case h_1 pc =>
          exact lockConexao_effect executed (by simp [callNext, pc]) (by rw [pc]; rfl) rfl
      case h_2 pc =>
          split_ifs at executed <;>
            exact goto_effect executed (by simp_all [callNext]) (Or.inl (by rw [pc]; rfl)) rfl
      case h_3 pc =>
          split at executed
          · rename_i accepted
            exact setCallbacks_effect executed ⟨rfl, pc, accepted⟩
              (by simp [callNext, pc, accepted])
          · rename_i refused
            exact goto_effect executed (by simp [callNext, pc, refused]) (Or.inr ⟨pc, refused⟩) rfl
      case h_4 pc => exact issue_effect pc executed (by simp [callNext, pc]) rfl rfl
      case h_5 pc => exact unlockConexao_effect executed (by simp [callNext, pc]) (by rw [pc]; rfl)
      case h_6 => exact esperar_effect executed rfl
  | subscribe args =>
      simp only [despachar, Subscribe.despachar] at executed
      split at executed
      case h_1 pc =>
          apply goto_effect executed (by simp [callNext, pc]) (Or.inl (by rw [pc]; rfl))
          split <;> rfl
      case h_2 pc | h_6 pc => exact acquireMap_effect pc executed (by simp [callNext, pc])
      case h_3 pc | h_7 pc => exact updateMap_effect pc executed (by simp [callNext, pc])
      case h_4 pc | h_8 pc => exact releaseMap_effect pc executed (by simp [callNext, pc]) rfl
      case h_5 pc => exact issue_effect pc executed (by simp [callNext, pc]) rfl rfl
      case h_9 => exact esperar_effect executed rfl
  | unsubscribe topicos =>
      simp only [despachar, Unsubscribe.despachar] at executed
      split at executed
      case h_1 pc => exact issue_effect pc executed (by simp [callNext, pc]) rfl rfl
      case h_2 pc => exact acquireMap_effect pc executed (by simp [callNext, pc])
      case h_3 pc => exact updateMap_effect pc executed (by simp [callNext, pc])
      case h_4 pc => exact releaseMap_effect pc executed (by simp [callNext, pc]) rfl
      case h_5 => exact esperar_effect executed rfl
  | desconectar =>
      simp only [despachar, Disconnect.despachar] at executed
      split at executed
      case h_1 pc =>
          apply goto_effect executed (by simp [callNext, pc]) (Or.inl (by rw [pc]; rfl))
          split <;> rfl
      case h_2 pc =>
          exact lockConexao_effect executed (by simp [callNext, pc]) (by rw [pc]; rfl) rfl
      case h_3 pc => exact issue_effect pc executed (by simp [callNext, pc]) rfl rfl
      case h_4 pc => exact unlockConexao_effect executed (by simp [callNext, pc]) (by rw [pc]; rfl)
      case h_5 => exact esperar_effect executed rfl

theorem waitNext_ne_idle {after : Bool → Pc} (returns : ∀ res, after res ≠ .idle) (x : Contexto)
    {pc : Pc} (started : pc ≠ .idle) : waitNext after x pc ≠ .idle := by
  cases pc with
  | idle => exact absurd rfl started
  | waitTest =>
      simp only [waitNext]
      split <;> simp
  | waitUnlock res => exact returns res
  | _ => simp [waitNext]

/-- A call that has started does not become idle again. -/
theorem callNext_ne_idle (op : Operation) (ret : Int) (started : s.pc c ≠ .idle) :
    callNext op c ret s ≠ .idle := by
  unfold callNext
  split
  case h_2 => split_ifs <;> simp
  case h_3 | h_4 | h_5 | h_8 | h_10 | h_12 | h_13 => split <;> simp
  all_goals first
    | simp; done
    | exact waitNext_ne_idle (by simp) _ started

end Calls

/-- The handler is inside its exclusive section of the table. -/
def Request.writesMap : Request → Bool
  | running _ .loop | running _ .release => true
  | _ => false

/-- The extent of one statement of a handler: it pops the queue of its context
only when it notifies. -/
structure HandlerEffect (op : Operation) (c : CallId) (res : Completion) (pc : HandlerPc)
    (s t : State) : Prop where
  pcEq : t.pc = s.pc
  request : t.request = Function.update s.request c (handlerNext op res pc)
  table : t.callbackMap =
    if pc = .loop then handlerLoop op s.callbackMap else s.callbackMap
  slock : RWLock.Use (Agent.handler c) s.callbackMapSlock t.callbackMapSlock
    (Request.running res pc).writesMap (handlerNext op res pc).writesMap false false
  primeiraTentativa : t.primeiraTentativa = s.primeiraTentativa
  fila : ∀ y, t.fila y = s.fila y ∨
    y = contextOf op c ∧ pc = .notify ∧ t.fila y = (s.fila y).tail
  conectado : t.conectado = s.conectado
  delivery : t.delivery = s.delivery
  active : t.active = if pc = .unlock then s.active.erase (.handler c) else s.active
  conexaoMtx : t.conexaoMtx = s.conexaoMtx

/-- No handler starts inside the section. -/
theorem writesMap_handlerNext_start (op : Operation) (res : Completion) :
    (handlerNext op res .start).writesMap = false := by
  cases op <;> cases res <;> try rfl
  simp only [handlerNext, handlerOf, Subscribe.sucesso]
  split <;> rfl

section Handlers

variable {s t : State} {op : Operation} {c : CallId} {res : Completion} {pc : HandlerPc}

/-- A statement outside the loop that only moves its handler, or writes contexts
besides. -/
theorem HandlerEffect.of_move {contexto : ContextId → Contexto} (outside : pc ≠ .loop)
    (stays : pc ≠ .unlock)
    (writes : (handlerNext op res pc).writesMap = (Request.running res pc).writesMap)
    (fila : ∀ y, (contexto y).finalizadaCv = s.fila y ∨
      y = contextOf op c ∧ pc = .notify ∧ (contexto y).finalizadaCv = (s.fila y).tail) :
    HandlerEffect op c res pc s
      ({ s with contexto := contexto }.setRequest c (handlerNext op res pc)) where
  pcEq := rfl
  request := rfl
  table := (if_neg outside).symm
  slock := by
    rw [writes]
    exact .none rfl
  primeiraTentativa := rfl
  fila := fila
  conectado := rfl
  delivery := rfl
  active := (if_neg stays).symm
  conexaoMtx := rfl

/-- A statement that leaves contexts and callbacks alone, and updates the table
only in the loop. -/
theorem HandlerEffect.of_map {map : CallbackMap} {lock : RWLock Agent} (stays : pc ≠ .unlock)
    (table : map = if pc = .loop then handlerLoop op s.callbackMap else s.callbackMap)
    (slock : RWLock.Use (Agent.handler c) s.callbackMapSlock lock
      (Request.running res pc).writesMap (handlerNext op res pc).writesMap false false) :
    HandlerEffect op c res pc s
      ({ s with callbackMap := map, callbackMapSlock := lock }.setRequest c
        (handlerNext op res pc)) where
  pcEq := rfl
  request := rfl
  table := table
  slock := slock
  primeiraTentativa := rfl
  fila _ := Or.inl rfl
  conectado := rfl
  delivery := rfl
  active := (if_neg stays).symm
  conexaoMtx := rfl

theorem handle_effect (executed : handle op c res pc s = some t) :
    HandlerEffect op c res pc s t := by
  cases pc with
  | start =>
      cases executed
      exact .of_move (by simp) (by simp) (writesMap_handlerNext_start op res) fun _ => Or.inl rfl
  | acquire =>
      obtain ⟨lock, acquired, rfl⟩ := Option.map_eq_some_iff.mp executed
      exact .of_map (by simp) rfl (.acquireExclusive acquired)
  | loop =>
      cases executed
      exact .of_map (by simp) rfl (.none rfl)
  | release =>
      cases executed
      exact .of_map (by simp) rfl (.releaseExclusive rfl)
  | lock =>
      simp only [handle, Contexto.notificarUm] at executed
      split at executed <;> cases executed
      exact .of_move (by simp) (by simp) rfl fun y => Or.inl (fila_of_same s _ y rfl)
  | store value | mark =>
      cases executed
      exact .of_move (by simp) (by simp) rfl fun y => Or.inl (fila_of_same s _ y rfl)
  | notify =>
      cases executed
      refine .of_move (by simp) (by simp) rfl ?_
      intro y
      by_cases same : y = contextOf op c
      · subst y
        exact Or.inr ⟨rfl, rfl, (fila_setContexto s _ _ _).trans (if_pos rfl)⟩
      · exact Or.inl ((fila_setContexto s _ y _).trans (if_neg same))
  | unlock =>
      cases executed
      exact {
        pcEq := rfl
        request := rfl
        table := rfl
        slock := .none rfl
        primeiraTentativa := rfl
        fila := fun y => Or.inl
          (fila_of_same { s with active := s.active.erase (.handler c) } _ y rfl)
        conectado := rfl
        delivery := rfl
        active := rfl
        conexaoMtx := rfl }

end Handlers

/-! ## Steps of the system -/

/-- What a step of each kind requires and does. -/
inductive StepEffect (program : Program) (s : State) : Label → State → Prop
  | start {c : CallId} (idle : s.pc c = .idle) :
      StepEffect program s (.start c) (s.setPc c (entry (program.op c)))
  | call {c : CallId} {ret : Int} {t : State}
      (executed : despachar (program.op c) c ret s = some t)
      (effect : CallEffect (program.op c) c ret s t) : StepEffect program s (.call c ret) t
  | wake {c : CallId} (x : Contexto) :
      StepEffect program s (.wake c) (s.setContexto (contextOf (program.op c) c) x)
  | complete {c : CallId} {res : Completion} (pending : s.request c = .pending)
      (answered : (program.op c).answers res = true) :
      StepEffect program s (.complete c res)
        ({ s with conectado := conectadoAfter (program.op c) res s.conectado }.setRequest c
          (.ready res))
  | deliver {c : CallId} {res : Completion} (ready : s.request c = .ready res) :
      StepEffect program s (.deliver c)
        ({ s with active := .handler c :: s.active }.setRequest c (.running res .start))
  | handler {c : CallId} {res : Completion} {pc : HandlerPc} {t : State}
      (running : s.request c = .running res pc)
      (effect : HandlerEffect (program.op c) c res pc s t) : StepEffect program s (.handler c) t
  | arrive {m : MsgId} (idle : (s.delivery m).pc = .idle) :
      StepEffect program s (.arrive m)
        ({ s with active := .message m :: s.active }.setDelivery m
          { s.delivery m with pc := .acquire })
  | message {m : MsgId} {ret : Int} {t : State}
      (executed : Connect.mensagemRecebida (program.chave m) m ret s = some t) :
      StepEffect program s (.message m ret) t
  | network {conectado : Bool} :
      StepEffect program s (.network conectado) { s with conectado := conectado }

section Steps

variable {program : Program} {s t : State} {label : Label}

theorem step_effect (executed : step program s label = some t) :
    StepEffect program s label t := by
  cases label with
  | start c =>
      simp only [step, goto] at executed
      split at executed <;> cases executed
      exact .start (by assumption)
  | call c ret => exact .call executed (despachar_effect executed)
  | wake c =>
      simp only [step, Contexto.acordar] at executed
      split at executed <;> cases executed
      exact .wake _
  | complete c res =>
      simp only [step] at executed
      split at executed <;> cases executed
      rename_i enabled
      exact .complete enabled.1 enabled.2
  | deliver c =>
      simp only [step] at executed
      split at executed <;> cases executed
      exact .deliver (by assumption)
  | handler c =>
      simp only [step] at executed
      split at executed
      · exact .handler (by assumption) (handle_effect executed)
      · cases executed
  | arrive m =>
      simp only [step] at executed
      split at executed <;> cases executed
      exact .arrive (by assumption)
  | message m ret => exact .message executed
  | network conectado =>
      cases executed
      exact .network

/-- The command of a call advances through its own call, the library and its
handler, one stage at a time. -/
theorem request_cases (executed : step program s label = some t) (c : CallId) :
    t.request c = s.request c ∨
      (∃ ret, label = .call c ret ∧ s.pc c = .command ∧
        t.request c = if ret = MQTTASYNC_SUCCESS then .pending else .rejected ret) ∨
      (∃ res, label = .complete c res ∧ s.request c = .pending ∧
        (program.op c).answers res = true ∧ t.request c = .ready res) ∨
      (∃ res, label = .deliver c ∧ s.request c = .ready res ∧
        t.request c = .running res .start) ∨
      ∃ res pc, label = .handler c ∧ s.request c = .running res pc ∧
        t.request c = handlerNext (program.op c) res pc := by
  cases step_effect executed with
  | start | wake | arrive | network => exact Or.inl rfl
  | @call d ret _ _ effect =>
      rw [effect.request]
      split
      · rename_i pc
        by_cases own : c = d
        · subst d
          exact Or.inr (Or.inl ⟨ret, rfl, pc, by simp⟩)
        · exact Or.inl (by simp [own])
      · exact Or.inl rfl
  | @complete d res pending answered =>
      by_cases own : c = d
      · subst d
        exact Or.inr (Or.inr (Or.inl ⟨res, rfl, pending, answered, by simp [State.setRequest]⟩))
      · exact Or.inl (by simp [State.setRequest, own])
  | @deliver d res ready =>
      by_cases own : c = d
      · subst d
        exact Or.inr (Or.inr (Or.inr (Or.inl ⟨res, rfl, ready, by simp [State.setRequest]⟩)))
      · exact Or.inl (by simp [State.setRequest, own])
  | @handler d res pc _ running effect =>
      rw [effect.request]
      by_cases own : c = d
      · subst d
        exact Or.inr (Or.inr (Or.inr (Or.inr ⟨res, pc, rfl, running, by simp⟩)))
      · exact Or.inl (by simp [own])
  | message messageStep =>
      rw [(mensagemRecebida_frame messageStep).request]
      exact Or.inl rfl

/-- Only the start of a call and its own statements move its program counter. -/
theorem pc_cases (executed : step program s label = some t) (c : CallId) :
    t.pc c = s.pc c ∨ (label = .start c ∧ s.pc c = .idle ∧ t.pc c = entry (program.op c)) ∨
      ∃ ret, label = .call c ret ∧ despachar (program.op c) c ret s = some t ∧
        t.pc c = callNext (program.op c) c ret s := by
  cases step_effect executed with
  | wake | complete | deliver | arrive | network => exact Or.inl rfl
  | @start d idle =>
      by_cases own : c = d
      · subst d
        exact Or.inr (Or.inl ⟨rfl, idle, by simp [State.setPc]⟩)
      · exact Or.inl (by simp [State.setPc, own])
  | @call d ret _ enabled effect =>
      by_cases own : c = d
      · subst d
        exact Or.inr (Or.inr ⟨ret, rfl, enabled, by rw [effect.pc, Function.update_self]⟩)
      · rw [effect.pc]
        exact Or.inl (by simp [own])
  | handler _ effect =>
      rw [effect.pcEq]
      exact Or.inl rfl
  | message messageStep =>
      rw [(mensagemRecebida_frame messageStep).pc]
      exact Or.inl rfl

/-- The statement that a call executes determines where it goes on. -/
theorem pc_of_call {c : CallId} {ret : Int} (executed : step program s (.call c ret) = some t) :
    t.pc c = callNext (program.op c) c ret s := by
  rw [(despachar_effect executed).pc, Function.update_self]

/-- A call advances its own command by issuing it only. -/
theorem request_of_call {c : CallId} {ret : Int}
    (executed : step program s (.call c ret) = some t) :
    t.request c = if s.pc c = .command then
      (if ret = MQTTASYNC_SUCCESS then .pending else .rejected ret) else s.request c := by
  rw [(despachar_effect executed).request]
  split <;> simp

/-- A statement of a handler advances the command that it reports. -/
theorem request_of_handler {c : CallId} (executed : step program s (.handler c) = some t) :
    ∃ res pc, s.request c = .running res pc ∧
      t.request c = handlerNext (program.op c) res pc ∧ t.pc = s.pc := by
  cases step_effect executed with
  | @handler _ res pc _ running effect =>
      exact ⟨res, pc, running, by rw [effect.request, Function.update_self], effect.pcEq⟩

/-- Between two of its own statements a call can only be started. -/
theorem pc_of_not_call (executed : step program s label = some t) {c : CallId}
    (notCall : ∀ ret, label ≠ .call c ret) :
    t.pc c = s.pc c ∨ s.pc c = .idle ∧ t.pc c = entry (program.op c) := by
  rcases pc_cases executed c with same | ⟨_, idle, entered⟩ | ⟨ret, labelEq, _⟩
  · exact Or.inl same
  · exact Or.inr ⟨idle, entered⟩
  · exact absurd labelEq (notCall ret)

/-- Between two of its own statements the command of a call only advances once it
is accepted. -/
theorem request_of_not_call (executed : step program s label = some t) {c : CallId}
    (notCall : ∀ ret, label ≠ .call c ret) :
    t.request c = s.request c ∨
      (s.request c).accepted = true ∧ (t.request c).accepted = true := by
  rcases request_cases executed c with same | ⟨ret, labelEq, _⟩ |
    ⟨res, _, pending, _, ready⟩ | ⟨res, _, ready, running⟩ | ⟨res, pc, _, running, next⟩
  · exact Or.inl same
  · exact absurd labelEq (notCall ret)
  · rw [pending, ready]
    exact Or.inr ⟨rfl, rfl⟩
  · rw [ready, running]
    exact Or.inr ⟨rfl, rfl⟩
  · rw [running, next]
    cases pc <;> exact Or.inr ⟨rfl, rfl⟩

theorem started_step (executed : step program s label = some t) {c : CallId}
    (started : s.pc c ≠ .idle) : t.pc c ≠ .idle := by
  rcases pc_cases executed c with same | ⟨_, idle, _⟩ | ⟨ret, _, _, next⟩
  · rw [same]
    exact started
  · exact absurd idle started
  · rw [next]
    exact callNext_ne_idle _ ret started

/-- A call that has not started, or has returned, has no statement to
execute. -/
theorem despachar_of_resting (op : Operation) {c : CallId} (ret : Int)
    (resting : (s.pc c).inProgress = false) : despachar op c ret s = none := by
  cases pc : s.pc c with
  | idle | returned =>
      cases op <;> simp [despachar, Connect.despachar, Subscribe.despachar,
        Unsubscribe.despachar, Disconnect.despachar, Contexto.esperar, pc]
  | _ =>
      rw [pc] at resting
      cases resting

/-- A call that is not in progress stays where it is until it is started. -/
theorem resting_of_run {start : State} {history : List (Event State Label)}
    (run : Run (step program) start history s) {c : CallId}
    (resting : (start.pc c).inProgress = false)
    (never : ∀ event ∈ history, event.label ≠ .start c) :
    s.pc c = start.pc c ∧ ∀ event ∈ history, event.source.pc c = start.pc c := by
  induction run with
  | refl => exact ⟨rfl, by simp⟩
  | @tail history source target label run executed ih =>
      obtain ⟨notNow, notBefore⟩ := List.forall_mem_cons.mp never
      obtain ⟨still, sources⟩ := ih notBefore
      constructor
      · rcases pc_cases executed c with same | ⟨started, _⟩ | ⟨ret, _, enabled, _⟩
        · rw [same, still]
        · exact absurd started notNow
        · rw [despachar_of_resting _ ret (by rwa [still])] at enabled
          cases enabled
      · exact List.forall_mem_cons.mpr ⟨still, sources⟩

/-- The connection state changes by itself or when a connect or disconnect
command finishes. -/
theorem conectado_cases (executed : step program s label = some t) :
    t.conectado = s.conectado ∨ (∃ conectado, label = .network conectado) ∨
      ∃ c res, label = .complete c res ∧ s.request c = .pending ∧
        (program.op c).usesConexao = true := by
  cases step_effect executed with
  | start | wake | deliver | arrive => exact Or.inl rfl
  | call _ effect => exact Or.inl effect.conectado
  | handler _ effect => exact Or.inl effect.conectado
  | message messageStep => exact Or.inl (mensagemRecebida_frame messageStep).conectado
  | @network conectado => exact Or.inr (Or.inl ⟨conectado, rfl⟩)
  | @complete c res pending answered =>
      cases op : program.op c with
      | conectar | desconectar =>
          exact Or.inr (Or.inr ⟨c, res, rfl, pending, by rw [op]; rfl⟩)
      | subscribe | unsubscribe => exact Or.inl rfl

/-! ## Facts that only grow -/

/-- An accepted command stays accepted. -/
theorem accepted_step (executed : step program s label = some t) {c : CallId}
    (accepted : (s.request c).accepted = true) (issuedOnce : s.pc c ≠ .command) :
    (t.request c).accepted = true := by
  rcases request_cases executed c with same | ⟨_, _, pc, _⟩ | ⟨res, _, _, _, ready⟩ |
    ⟨res, _, _, running⟩ | ⟨res, pc, _, _, next⟩
  · rw [same]
    exact accepted
  · exact absurd pc issuedOnce
  · rw [ready]
    rfl
  · rw [running]
    rfl
  · rw [next]
    cases pc <;> rfl

/-- A call that is about to issue its command has not issued it. -/
theorem Inv.unissued_of_command (inv : Inv program s) {c : CallId} (pc : s.pc c = .command) :
    s.request c = .unissued := by
  have progress := inv.progress c
  rw [pc] at progress
  exact progress

/-- A command that was accepted stays accepted to the end of the run. -/
theorem accepted_of_run {history : List (Event State Label)}
    (run : Run (step program) s history t) (inv : Inv program s)
    {c : CallId} (accepted : (s.request c).accepted = true) :
    (t.request c).accepted = true := by
  apply inv.preserves (fun state => (state.request c).accepted = true) run accepted
  intro event _ source executed before
  apply accepted_step executed before
  intro pc
  rw [source.unissued_of_command pc] at before
  cases before

end Steps

end PahoClient
