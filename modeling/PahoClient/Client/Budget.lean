import PahoClient.Client.Locks
import PahoClient.Transition.Potential

/-!
# How many statements a call has left

A call waits at most twice: its own predicate test may find the flag clear once,
and the notification of its handler wakes it once.  The level of a call counts
the statements that it and the handler of its command can still execute, and a
spurious wake-up adds one round of `wait` to it.
-/

namespace PahoClient

open PahoClient.Transition

/-! ## Levels -/

/-- The call holds `_conexao_mtx` when it leaves `esperar`. -/
def Operation.saida (op : Operation) : Nat :=
  if op.usesConexao then 1 else 0

/-- The statements of a handler before it stores its result. -/
def Operation.antesDeGuardar : Operation → Nat
  | subscribe _ => 4
  | conectar | unsubscribe _ | desconectar => 1

/-- The statements left to a call.  A blocked call that has not been notified
leaves the second half of its waiting to the level of its command. -/
def callLevel (op : Operation) (naFila : Bool) : Pc → Nat
  | .idle | .returned _ => 0
  | .unlockConexao _ => 1
  | .waitUnlock _ => 1 + op.saida
  | .waiting => if naFila then 1 + op.saida else 4 + op.saida
  | .waitTest => 2 + op.saida
  | .waitLock => 3 + op.saida
  | .release .desfazer => 1
  | .loop .desfazer => 2
  | .acquire .desfazer => 3
  | .release .apagar => 4
  | .loop .apagar => 5
  | .acquire .apagar => 6
  | .command =>
      match op with
      | .conectar | .desconectar => 16
      | .subscribe _ | .unsubscribe _ => 18
  | .release .inserir => 19
  | .loop .inserir => 20
  | .acquire .inserir => 21
  | .testVazio => 22
  | .setCallbacks => 17
  | .testConectado => 18
  | .lockConexao =>
      match op with
      | .desconectar => 17
      | .conectar | .subscribe _ | .unsubscribe _ => 19

/-- The statements left to a handler, and the three by which a notified call
tests its predicate again. -/
def handlerLevel (op : Operation) : HandlerPc → Nat
  | .start => 8 + op.antesDeGuardar
  | .acquire => 11
  | .loop => 10
  | .release => 9
  | .store _ => 8
  | .lock => 7
  | .mark => 6
  | .notify => 5
  | .unlock => 1

def requestLevel (op : Operation) : Request → Nat
  | .unissued | .rejected _ | .done _ => 0
  | .pending => 10 + op.antesDeGuardar
  | .ready _ => 9 + op.antesDeGuardar
  | .running _ pc => handlerLevel op pc

def messageLevel : MessagePc → Nat
  | .idle | .finished => 0
  | .acquire => 8
  | .lookup => 7
  | .release => 6
  | .call => 5
  | .inside => 4
  | .test => 3
  | .freeMessage => 2
  | .free => 1

/-- The most statements that a call of an operation and the handler of its
command execute when no wake-up is spurious. -/
def Operation.instrucoes : Operation → Nat
  | conectar => 19
  | subscribe _ => 22
  | unsubscribe _ | desconectar => 18

/-- The call is blocked on its condition variable. -/
def State.naFila (op : Operation) (c : CallId) (s : State) : Bool :=
  decide (c ∈ (s.contexto (contextOf op c)).finalizadaCv)

/-- A call with its command, or a run of `mensagemRecebida`. -/
abbrev Tarefa :=
  CallId ⊕ MsgId

/-- What is left of each task. -/
def nivel (program : Program) (s : State) : Tarefa → Nat
  | .inl c =>
      callLevel (program.op c) (s.naFila (program.op c) c) (s.pc c) +
        requestLevel (program.op c) (s.request c)
  | .inr m => messageLevel (s.delivery m).pc

/-- The task that a step belongs to. -/
def Label.tarefa : Label → Option Tarefa
  | .start c | .call c _ | .wake c | .complete c _ | .deliver c | .handler c => some (.inl c)
  | .arrive m | .message m _ => some (.inr m)
  | .network _ => none

/-- What a step adds to its task. -/
def Label.acrescimo (program : Program) : Label → Nat
  | .start c => (program.op c).instrucoes
  | .wake _ => 3
  | .arrive _ => 8
  | .call _ _ | .complete _ _ | .deliver _ | .handler _ | .message _ _ | .network _ => 0

theorem callLevel_entry (op : Operation) (naFila : Bool) :
    callLevel op naFila (entry op) = op.instrucoes := by
  cases op <;> rfl

/-! ## The queues of the condition variables -/

section Queues

variable {program : Program} {s t : State} {label : Label}

/-- Inside `esperar` all operations execute the same statements. -/
theorem despachar_of_inFrame {op : Operation} {c : CallId} {ret : Int}
    (frame : (s.pc c).inFrame = true) :
    despachar op c ret s =
      Contexto.esperar (contextOf op c)
        (if op.usesConexao then .unlockConexao else .returned) c s := by
  cases op <;> cases pc : s.pc c <;>
    simp_all [despachar, Connect.despachar, Subscribe.despachar, Unsubscribe.despachar,
      Disconnect.despachar, contextOf, Operation.usesConexao, Pc.inFrame]

/-- Only the step of the owner of a context, of its handler, or a spurious
wake-up of a queued call changes the queue of a context. -/
theorem fila_cases (executed : step program s label = some t) (y : ContextId) :
    t.fila y = s.fila y ∨
      (∃ c ret, label = .call c ret ∧ y = contextOf (program.op c) c ∧ s.pc c = .waitTest ∧
        t.fila y = s.fila y ++ [c]) ∨
      (∃ c, label = .wake c ∧ y = contextOf (program.op c) c ∧ c ∈ s.fila y ∧
        t.fila y = (s.fila y).erase c) ∨
      ∃ c res, label = .handler c ∧ y = contextOf (program.op c) c ∧
        s.request c = .running res .notify ∧ t.fila y = (s.fila y).tail := by
  cases label with
  | wake c =>
      simp only [step, Contexto.acordar] at executed
      split at executed <;> cases executed
      rename_i queued
      by_cases same : y = contextOf (program.op c) c
      · subst y
        refine Or.inr (Or.inr (Or.inl ⟨c, rfl, rfl, queued, ?_⟩))
        exact (fila_setContexto s _ _ _).trans (if_pos rfl)
      · exact Or.inl ((fila_setContexto s _ y _).trans (if_neg same))
  | call c ret =>
      rcases (despachar_effect executed).fila y with same | ⟨here, pc, queued⟩
      · exact Or.inl same
      · exact Or.inr (Or.inl ⟨c, ret, rfl, here, pc, queued⟩)
  | handler c =>
      cases step_effect executed with
      | @handler _ res pc _ running effect =>
          rcases effect.fila y with same | ⟨here, rfl, popped⟩
          · exact Or.inl same
          · exact Or.inr (Or.inr (Or.inr ⟨c, res, rfl, here, running, popped⟩))
  | message m ret =>
      left
      unfold State.fila
      rw [(mensagemRecebida_frame executed).contexto]
  | start | complete | deliver | arrive | network =>
      cases step_effect executed
      exact Or.inl rfl

end Queues

/-! ## The positions of the calls -/

/-- The invariant, and calls at positions of their operations. -/
structure PcInv (program : Program) (s : State) : Prop where
  inv : Inv program s
  belongs : ∀ c, belongs (program.op c) (s.pc c) = true

theorem pcInv_initial (program : Program) (callbackMap : CallbackMap) (conectado : Bool) :
    PcInv program (initial callbackMap conectado) where
  inv := inv_initial program callbackMap conectado
  belongs c := by
    cases op : program.op c <;> rfl

section Positions

variable {program : Program} {s t : State} {label : Label}

theorem PcInv.step (pcInv : PcInv program s)
    (executed : PahoClient.step program s label = some t) : PcInv program t where
  inv := pcInv.inv.step executed
  belongs := belongs_step pcInv.belongs executed

/-- A step leaves the calls of the other tasks alone. -/
theorem same_of_other (executed : step program s label = some t) {c : CallId}
    (other : label.tarefa ≠ some (.inl c)) :
    t.pc c = s.pc c ∧ t.request c = s.request c := by
  constructor
  · rcases pc_cases executed c with same | ⟨rfl, _, _⟩ | ⟨ret, rfl, _, _⟩
    · exact same
    · exact absurd rfl other
    · exact absurd rfl other
  · rcases request_cases executed c with same | ⟨_, rfl, _, _⟩ | ⟨_, rfl, _, _, _⟩ |
      ⟨_, rfl, _, _⟩ | ⟨_, _, rfl, _, _⟩
    · exact same
    all_goals exact absurd rfl other

theorem pcInv_of_run {callbackMap : CallbackMap} {conectado : Bool}
    {history : List (Event State Label)}
    (run : Run (step program) (initial callbackMap conectado) history s) : PcInv program s :=
  run.invariant (PcInv program) (pcInv_initial program callbackMap conectado)
    fun _ _ _ inv executed => inv.step executed

end Positions

end PahoClient
