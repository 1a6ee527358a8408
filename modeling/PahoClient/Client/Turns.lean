import PahoClient.Client.Locks
import PahoClient.Control.Loop

/-!
# Loops that run turn by turn

The system of a client whose loops over `_callback_map` are interleaved with the
other threads after every turn.  A thread keeps the index of the loop that it is
in; the statements outside the loops are those of the coarse system.
-/

namespace PahoClient

open PahoClient.Control
open PahoClient.Store
open PahoClient.Transition

/-! ## Counted loops -/

/-- A loop over the table: how many turns it takes and what each of them does. -/
structure Contagem where
  voltas : Nat
  volta : Nat → CallbackMap → CallbackMap

/-- `_client._callback_map.insert({_topicos[i], _callbacks[i]})`. -/
def Subscribe.inserirVolta (args : Subscribe.Args) (i : Nat) (map : CallbackMap) : CallbackMap :=
  match args.topicos[i]?, args.callbacks[i]? with
  | some topico, some callback => map.insertNew topico callback
  | _, _ => map

/-- `_client._callback_map.erase(_topicos[i])`. -/
def apagarVolta (topicos : List StdString) (i : Nat) (map : CallbackMap) : CallbackMap :=
  match topicos[i]? with
  | some topico => map.erase topico
  | none => map

/-- The loops of the calling threads. -/
def callContagem : Operation → Laco → Contagem
  | .subscribe args, .inserir => ⟨args.topicos.length, Subscribe.inserirVolta args⟩
  | .subscribe args, .desfazer =>
      ⟨(Subscribe.qosRequisitados args).length, apagarVolta args.topicos⟩
  | .unsubscribe topicos, .apagar => ⟨topicos.length, apagarVolta topicos⟩
  | _, _ => ⟨0, fun _ map => map⟩

/-- The rollback loop of the handlers. -/
def handlerContagem : Operation → Contagem
  | .subscribe args => ⟨(Subscribe.qosRequisitados args).length, apagarVolta args.topicos⟩
  | _ => ⟨0, fun _ map => map⟩

/-- The loop that a thread is in. -/
def contagemDe (program : Program) (s : State) : Agent → Option Contagem
  | .call c =>
      match s.pc c with
      | .loop laco => some (callContagem (program.op c) laco)
      | _ => none
  | .handler c =>
      match s.request c with
      | .running _ .loop => some (handlerContagem (program.op c))
      | _ => none
  | .message _ => none

/-! ## The system -/

/-- A client together with the indices of the loops under way. -/
structure Voltas where
  state : State
  indice : Agent → Nat

def Voltas.initial (callbackMap : CallbackMap) (conectado : Bool) : Voltas where
  state := PahoClient.initial callbackMap conectado
  indice _ := 0

/-- The same client over another table. -/
def State.withMap (s : State) (map : CallbackMap) : State :=
  { s with callbackMap := map }

/-- The thread that executes a statement of the client. -/
def Label.agente : Label → Option Agent
  | .call c _ => some (.call c)
  | .handler c => some (.handler c)
  | .message m _ => some (.message m)
  | _ => none

/-- The thread of a step and the loop that it is in. -/
def emLaco (program : Program) (s : State) (label : Label) : Option (Agent × Contagem) :=
  label.agente.bind fun agent => (contagemDe program s agent).map fun contagem => (agent, contagem)

/-- A thread in a loop runs one turn, or leaves the loop when its index has reached
the end.  Every other step is the one of the coarse system. -/
def voltaStep (program : Program) : Step Voltas Label := fun x label =>
  match emLaco program x.state label with
  | none => (step program x.state label).map fun s => { x with state := s }
  | some (agent, contagem) =>
      if x.indice agent < contagem.voltas then
        some
          { state := x.state.withMap (contagem.volta (x.indice agent) x.state.callbackMap)
            indice := Function.update x.indice agent (x.indice agent + 1) }
      else
        (step program x.state label).map fun s =>
          { state := s.withMap x.state.callbackMap
            indice := Function.update x.indice agent 0 }

/-- The turns are not seen; the step that leaves a loop is seen as the loop. -/
def voltaView (program : Program) (x : Voltas) (label : Label) : Option Label :=
  match emLaco program x.state label with
  | none => some label
  | some (agent, contagem) => if x.indice agent < contagem.voltas then none else some label

/-! ## All turns of a loop -/

theorem inserirVolta_eq_onElement (args : Subscribe.Args) :
    Subscribe.inserirVolta args = onElement (args.topicos.zip args.callbacks)
      fun map entry => map.insertNew entry.1 entry.2 := by
  funext i map
  rw [Subscribe.inserirVolta, onElement, List.zip, List.getElem?_zipWith]
  cases args.topicos[i]? <;> cases args.callbacks[i]? <;> rfl

theorem apagarVolta_eq_onElement (topicos : List StdString) :
    apagarVolta topicos = onElement topicos Table.erase := by
  funext i map
  rw [apagarVolta, onElement]
  cases topicos[i]? <;> rfl

theorem advance_apagarVolta (topicos : List StdString) (count : Nat) (map : CallbackMap) :
    advance (apagarVolta topicos) 0 count map = map.eraseAll (topicos.take count) := by
  rw [apagarVolta_eq_onElement, advance_onElement, List.drop_zero, Table.eraseAll_eq_foldl]

/-- All turns together are the loop of the coarse system. -/
theorem advance_callContagem (op : Operation) (laco : Laco) (map : CallbackMap) :
    advance (callContagem op laco).volta 0 (callContagem op laco).voltas map =
      callLoop op laco map := by
  cases op with
  | subscribe args =>
      cases laco with
      | inserir =>
          simp only [callContagem, callLoop, Subscribe.inserir]
          rw [inserirVolta_eq_onElement, advance_onElement, List.drop_zero,
            Table.insertAll_eq_foldl, List.take_of_length_le]
          rw [List.length_zip]
          exact Nat.min_le_left _ _
      | desfazer => exact advance_apagarVolta _ _ _
      | apagar => rfl
  | unsubscribe topicos =>
      cases laco with
      | apagar =>
          simp only [callContagem, callLoop, Unsubscribe.apagar]
          rw [advance_apagarVolta, List.take_length]
      | inserir | desfazer => rfl
  | conectar | desconectar => cases laco <;> rfl

theorem advance_handlerContagem (op : Operation) (map : CallbackMap) :
    advance (handlerContagem op).volta 0 (handlerContagem op).voltas map =
      handlerLoop op map := by
  cases op with
  | subscribe args => exact advance_apagarVolta _ _ _
  | conectar | unsubscribe | desconectar => rfl

/-! ## Steps over another table -/

section Table

variable {program : Program} {s t : State} {label : Label}

@[simp]
theorem withMap_pc (s : State) (map : CallbackMap) : (s.withMap map).pc = s.pc :=
  rfl

theorem map_withMap_ite (map : CallbackMap) (p : Prop) [Decidable p] (first second : Option State) :
    (if p then first else second).map (·.withMap map) =
      if p then first.map (·.withMap map) else second.map (·.withMap map) :=
  apply_ite _ p first second

theorem esperar_withMap (y : ContextId) (after : Bool → Pc) (c : CallId) (map map' : CallbackMap)
    (s : State) :
    (Contexto.esperar y after c (s.withMap map)).map (·.withMap map') =
      (Contexto.esperar y after c s).map (·.withMap map') := by
  simp only [Contexto.esperar, withMap_pc]
  cases s.pc c with
  | waitLock | waitTest | waiting =>
      simp only [map_withMap_ite]
      rfl
  | _ => rfl

theorem lockConexao_withMap (c : CallId) (pc : Pc) (map map' : CallbackMap) (s : State) :
    (lockConexao c pc (s.withMap map)).map (·.withMap map') =
      (lockConexao c pc s).map (·.withMap map') := by
  simp only [lockConexao, map_withMap_ite]
  rfl

theorem issue_withMap (c : CallId) (ret : Int) (accepted rejected : Pc) (map map' : CallbackMap)
    (s : State) :
    (issue c ret accepted rejected (s.withMap map)).map (·.withMap map') =
      (issue c ret accepted rejected s).map (·.withMap map') := by
  simp only [issue, map_withMap_ite]
  rfl

theorem acquireMap_withMap (c : CallId) (pc : Pc) (map map' : CallbackMap) (s : State) :
    (acquireMap c pc (s.withMap map)).map (·.withMap map') =
      (acquireMap c pc s).map (·.withMap map') := by
  simp only [acquireMap, State.withMap, Option.map_map]
  rfl

theorem despachar_withMap (op : Operation) (c : CallId) (ret : Int) (map map' : CallbackMap)
    (s : State) :
    (despachar op c ret (s.withMap map)).map (·.withMap map') =
      (despachar op c ret s).map (·.withMap map') := by
  have waits := fun y after => esperar_withMap y after c map map' s
  have pcEq : (s.withMap map).pc c = s.pc c := rfl
  cases op with
  | conectar =>
      simp only [despachar, Connect.despachar, pcEq]
      cases s.pc c with
      | lockConexao => exact lockConexao_withMap _ _ _ _ _
      | testConectado | setCallbacks =>
          simp only [map_withMap_ite]
          rfl
      | command => exact issue_withMap _ _ _ _ _ _ _
      | unlockConexao res => rfl
      | _ => exact waits _ _
  | desconectar =>
      simp only [despachar, Disconnect.despachar, pcEq]
      cases s.pc c with
      | lockConexao => exact lockConexao_withMap _ _ _ _ _
      | testConectado => rfl
      | command => exact issue_withMap _ _ _ _ _ _ _
      | unlockConexao res => rfl
      | _ => exact waits _ _
  | subscribe args =>
      simp only [despachar, Subscribe.despachar, pcEq]
      cases s.pc c with
      | testVazio => rfl
      | command => exact issue_withMap _ _ _ _ _ _ _
      | acquire laco =>
          cases laco with
          | inserir | desfazer => exact acquireMap_withMap _ _ _ _ _
          | apagar => exact waits _ _
      | loop laco =>
          cases laco with
          | inserir | desfazer => rfl
          | apagar => exact waits _ _
      | release laco =>
          cases laco with
          | inserir | desfazer => rfl
          | apagar => exact waits _ _
      | _ => exact waits _ _
  | unsubscribe topicos =>
      simp only [despachar, Unsubscribe.despachar, pcEq]
      cases s.pc c with
      | command => exact issue_withMap _ _ _ _ _ _ _
      | acquire laco =>
          cases laco with
          | apagar => exact acquireMap_withMap _ _ _ _ _
          | inserir | desfazer => exact waits _ _
      | loop laco =>
          cases laco with
          | apagar => rfl
          | inserir | desfazer => exact waits _ _
      | release laco =>
          cases laco with
          | apagar => rfl
          | inserir | desfazer => exact waits _ _
      | _ => exact waits _ _

theorem handle_withMap (op : Operation) (c : CallId) (res : Completion) (pc : HandlerPc)
    (map map' : CallbackMap) (s : State) :
    (handle op c res pc (s.withMap map)).map (·.withMap map') =
      (handle op c res pc s).map (·.withMap map') := by
  cases pc with
  | acquire =>
      simp only [handle, State.withMap, Option.map_map]
      rfl
  | lock =>
      simp only [handle, Contexto.notificarUm, map_withMap_ite]
      rfl
  | start | loop | release | store | mark | notify | unlock => rfl

/-- A message reads the table in its lookup only. -/
theorem mensagemRecebida_withMap (chave : StdString) (m : MsgId) (ret : Int)
    (map map' : CallbackMap) (s : State)
    (same : (s.delivery m).pc = .lookup → map = s.callbackMap) :
    (Connect.mensagemRecebida chave m ret (s.withMap map)).map (·.withMap map') =
      (Connect.mensagemRecebida chave m ret s).map (·.withMap map') := by
  have pcEq : (s.withMap map).delivery m = s.delivery m := rfl
  simp only [Connect.mensagemRecebida, pcEq]
  cases pc : (s.delivery m).pc with
  | acquire =>
      simp only [State.withMap, Option.map_map]
      rfl
  | lookup =>
      rw [same pc]
      rfl
  | call | test =>
      simp only [map_withMap_ite]
      rfl
  | _ => rfl

/-- But for the table itself, a step over another table is the same step. -/
theorem step_withMap (map map' : CallbackMap)
    (same : ∀ m ret, label = .message m ret → (s.delivery m).pc = .lookup → map = s.callbackMap) :
    (step program (s.withMap map) label).map (·.withMap map') =
      (step program s label).map (·.withMap map') := by
  cases label with
  | start c =>
      simp only [step, map_withMap_ite]
      rfl
  | call c ret => exact despachar_withMap _ _ _ _ _ _
  | wake c =>
      simp only [step, Contexto.acordar, map_withMap_ite]
      rfl
  | complete c res =>
      simp only [step, map_withMap_ite]
      rfl
  | deliver c =>
      simp only [step, State.withMap]
      cases s.request c <;> rfl
  | handler c =>
      have requestEq : (s.withMap map).request c = s.request c := rfl
      simp only [step, requestEq]
      cases s.request c with
      | running res pc => exact handle_withMap _ _ _ _ _ _ _
      | _ => rfl
  | arrive m =>
      simp only [step, map_withMap_ite]
      rfl
  | message m ret => exact mensagemRecebida_withMap _ _ _ _ _ _ (same m ret rfl)
  | network conectado => rfl

/-- A step over another table has its counterpart over the own one. -/
theorem exists_step_of_withMap {map : CallbackMap}
    (executed : step program (s.withMap map) label = some t)
    (same : ∀ m ret, label = .message m ret → (s.delivery m).pc = .lookup → map = s.callbackMap) :
    ∃ u, step program s label = some u ∧ ∀ map', t.withMap map' = u.withMap map' := by
  have counterpart : ∀ map', (step program (s.withMap map) label).map (·.withMap map') =
      (step program s label).map (·.withMap map') := fun map' => step_withMap map map' same
  simp only [executed, Option.map_some] at counterpart
  cases coarse : step program s label with
  | none =>
      have impossible := counterpart map
      rw [coarse] at impossible
      cases impossible
  | some u =>
      refine ⟨u, rfl, fun map' => ?_⟩
      have equal := counterpart map'
      rw [coarse] at equal
      exact Option.some.inj equal

end Table

end PahoClient
