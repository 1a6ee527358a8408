import PahoClient.Client.Locks

/-!
# No deadlock

A call blocks in four places only: at `_conexao_mtx`, at the lock of the
callback table, at the mutex of its context and in `esperar`.  Each of them
leads to a thread, or to a command at the library, that can go on.
-/

namespace PahoClient

open PahoClient.Sync
open PahoClient.Transition

/-- A step of a call, a handler, a run of `mensagemRecebida`, or of the library
finishing or reporting an accepted command.  The start of a call, the arrival of
a message, a spurious wake-up and a change of the connection do not count. -/
def Label.advances : Label → Bool
  | .call _ _ | .complete _ _ | .deliver _ | .handler _ | .message _ _ => true
  | .start _ | .arrive _ | .wake _ | .network _ => false

/-- Something that has begun can go on. -/
def Advances (program : Program) (s : State) : Prop :=
  ∃ label t, label.advances = true ∧ serialStep program s label = some t

/-- The call waits for another thread or for the library. -/
def Blocked (op : Operation) (c : CallId) (s : State) : Prop :=
  match s.pc c with
  | .lockConexao => s.conexaoMtx ≠ none
  | .acquire _ => s.callbackMapSlock.acquireExclusive (.call c) = none
  | .waitLock => (s.contexto (contextOf op c)).finalizadaMtx ≠ none
  | .waiting => c ∈ (s.contexto (contextOf op c)).finalizadaCv
  | _ => False

section Progress

variable {program : Program} {s : State}

/-! ## Threads that are not blocked -/

theorem Advances.of_step (label : Label) (advances : label.advances = true)
    (inside : label.entersCallback = false)
    (enabled : (step program s label).isSome = true) : Advances program s := by
  obtain ⟨t, executed⟩ := Option.isSome_iff_exists.mp enabled
  refine ⟨label, t, advances, ?_⟩
  simp only [serialStep, inside, Bool.false_and]
  exact executed

theorem esperar_enabled {op : Operation} {after : Bool → Pc} {c : CallId}
    (frame : (s.pc c).inFrame = true) (free : ¬ Blocked op c s) :
    (Contexto.esperar (contextOf op c) after c s).isSome = true := by
  unfold Blocked at free
  unfold Contexto.esperar
  split
  case h_1 pc =>
      simp only [pc, ne_eq, not_not] at free
      rw [if_pos free]
      rfl
  case h_2 => split <;> rfl
  case h_3 pc =>
      simp only [pc] at free
      rw [if_neg free]
      rfl
  case h_4 => rfl
  case h_5 other1 other2 other3 other4 =>
      cases pc : s.pc c <;> simp_all [Pc.inFrame]

theorem lockConexao_enabled {op : Operation} {c : CallId} {next : Pc}
    (pc : s.pc c = .lockConexao) (free : ¬ Blocked op c s) :
    (lockConexao c next s).isSome = true := by
  simp only [Blocked, pc, ne_eq, not_not] at free
  rw [lockConexao, if_pos free]
  rfl

theorem acquireMap_enabled {op : Operation} {c : CallId} {laco : Laco} {next : Pc}
    (pc : s.pc c = .acquire laco) (free : ¬ Blocked op c s) :
    (acquireMap c next s).isSome = true := by
  simp only [Blocked, pc] at free
  rw [acquireMap, Option.isSome_map]
  exact Option.isSome_iff_ne_none.mpr free

theorem issue_enabled (c : CallId) (ret : Int) (accepted rejected : Pc) (s : State) :
    (issue c ret accepted rejected s).isSome = true := by
  unfold issue
  split <;> rfl

/-- A call in progress that is not blocked can execute its next statement. -/
theorem despachar_enabled {op : Operation} {c : CallId} (inside : belongs op (s.pc c) = true)
    (progress : (s.pc c).inProgress = true) (free : ¬ Blocked op c s) :
    (despachar op c MQTTASYNC_SUCCESS s).isSome = true := by
  cases op with
  | conectar =>
      simp only [despachar, Connect.despachar]
      split
      case h_1 pc => exact lockConexao_enabled pc free
      case h_2 => split_ifs <;> rfl
      case h_3 => split <;> rfl
      case h_4 => exact issue_enabled ..
      case h_5 => rfl
      case h_6 =>
          apply esperar_enabled _ free
          cases pc : s.pc c <;> simp_all [belongs, Pc.inProgress, Pc.inFrame]
  | subscribe args =>
      simp only [despachar, Subscribe.despachar]
      split
      case h_2 pc | h_6 pc => exact acquireMap_enabled pc free
      case h_5 => exact issue_enabled ..
      case h_1 | h_3 | h_4 | h_7 | h_8 => rfl
      case h_9 =>
          apply esperar_enabled _ free
          cases pc : s.pc c with
          | acquire laco | loop laco | release laco =>
              cases laco <;> simp_all [belongs]
          | _ => simp_all [belongs, Pc.inProgress, Pc.inFrame]
  | unsubscribe topicos =>
      simp only [despachar, Unsubscribe.despachar]
      split
      case h_1 => exact issue_enabled ..
      case h_2 pc => exact acquireMap_enabled pc free
      case h_3 | h_4 => rfl
      case h_5 =>
          apply esperar_enabled _ free
          cases pc : s.pc c with
          | acquire laco | loop laco | release laco =>
              cases laco <;> simp_all [belongs]
          | _ => simp_all [belongs, Pc.inProgress, Pc.inFrame]
  | desconectar =>
      simp only [despachar, Disconnect.despachar]
      split
      case h_2 pc => exact lockConexao_enabled pc free
      case h_3 => exact issue_enabled ..
      case h_1 | h_4 => rfl
      case h_5 =>
          apply esperar_enabled _ free
          cases pc : s.pc c <;> simp_all [belongs, Pc.inProgress, Pc.inFrame]

theorem LockInv.advances_of_call (inv : LockInv program s) {c : CallId}
    (progress : (s.pc c).inProgress = true) (free : ¬ Blocked (program.op c) c s) :
    Advances program s :=
  Advances.of_step (.call c MQTTASYNC_SUCCESS) rfl rfl
    (despachar_enabled (inv.belongs c) progress free)

/-! ## The lock of the table -/

/-- The holder of the table's lock is not blocked. -/
theorem LockInv.advances_of_writer (inv : LockInv program s) {agent : Agent}
    (writer : s.callbackMapSlock.writer = some agent) : Advances program s := by
  have writes := (inv.guarded.writer agent).mp writer
  cases agent with
  | call c =>
      have writesPc : (s.pc c).writesMap = true := writes
      apply inv.advances_of_call (c := c)
      · cases pc : s.pc c <;> simp_all [Pc.writesMap, Pc.inProgress]
      · unfold Blocked
        cases pc : s.pc c <;> simp_all [Pc.writesMap]
  | handler c =>
      have writesRequest : (s.request c).writesMap = true := writes
      apply Advances.of_step (.handler c) rfl rfl
      cases request : s.request c with
      | running res pc =>
          rw [request] at writesRequest
          simp only [PahoClient.step, request]
          cases pc with
          | loop | release => rfl
          | _ => cases writesRequest
      | _ =>
          rw [request] at writesRequest
          cases writesRequest
  | message m => cases writes

theorem LockInv.advances_of_reader (inv : LockInv program s) (agent : Agent)
    (reader : agent ∈ s.callbackMapSlock.readers) : Advances program s := by
  have reads := (inv.guarded.readers agent).mp reader
  cases agent with
  | call c => cases reads
  | handler c => cases reads
  | message m =>
      have readsDelivery : (s.delivery m).pc.readsMap = true := reads
      apply Advances.of_step (.message m 0) rfl rfl
      simp only [PahoClient.step, Connect.mensagemRecebida]
      cases pc : (s.delivery m).pc with
      | lookup | release => rfl
      | _ =>
          rw [pc] at readsDelivery
          cases readsDelivery

/-- A thread that cannot take the table's lock waits for one that can go on. -/
theorem LockInv.advances_of_refused (inv : LockInv program s) (agent : Agent)
    (refused : s.callbackMapSlock.acquireExclusive agent = none) : Advances program s := by
  cases writer : s.callbackMapSlock.writer with
  | some holder => exact inv.advances_of_writer writer
  | none =>
      cases readers : s.callbackMapSlock.readers with
      | nil => simp [RWLock.acquireExclusive, writer, readers] at refused
      | cons reader rest =>
          apply inv.advances_of_reader reader
          rw [readers]
          exact List.mem_cons_self

theorem LockInv.advances_of_refusedShared (inv : LockInv program s) (agent : Agent)
    (refused : s.callbackMapSlock.acquireShared agent = none) : Advances program s := by
  cases writer : s.callbackMapSlock.writer with
  | some holder => exact inv.advances_of_writer writer
  | none => simp [RWLock.acquireShared, writer] at refused

/-! ## The mutex of a context -/

/-- The holder of the mutex of an owned context is not blocked. -/
theorem LockInv.advances_of_contexto (inv : LockInv program s) {c : CallId}
    (owner : owns (program.op c) (s.pc c) = true)
    (held : (s.contexto (contextOf (program.op c) c)).finalizadaMtx ≠ none) :
    Advances program s := by
  rw [(inv.inv.agrees c owner).mutex] at held
  split at held
  · rename_i holds
    apply inv.advances_of_call (c := c)
    · cases pc : s.pc c <;> simp_all [Pc.holdsContexto, Pc.inProgress]
    · unfold Blocked
      cases pc : s.pc c <;> simp_all [Pc.holdsContexto]
  · split at held
    · rename_i holds
      apply Advances.of_step (.handler c) rfl rfl
      cases request : s.request c with
      | running res pc =>
          rw [request] at holds
          simp only [PahoClient.step, request]
          cases pc with
          | mark | notify | unlock => rfl
          | _ => cases holds
      | _ =>
          rw [request] at holds
          cases holds
    · exact absurd rfl held

/-! ## Commands at the library -/

/-- A handler waits for the table's lock or for the mutex of its context only. -/
theorem LockInv.advances_of_running (inv : LockInv program s) {c : CallId} {res : Completion}
    {pc : HandlerPc} (running : s.request c = .running res pc) : Advances program s := by
  have owner : owns (program.op c) (s.pc c) = true := by
    apply inv.inv.owns_of_outstanding
    rw [running]
    rfl
  by_cases enabled : (PahoClient.step program s (.handler c)).isSome = true
  · exact Advances.of_step (.handler c) rfl rfl enabled
  · simp only [PahoClient.step, running, Bool.not_eq_true, Option.isSome_eq_false_iff,
      Option.isNone_iff_eq_none] at enabled
    cases pc with
    | acquire =>
        apply inv.advances_of_refused (.handler c)
        exact Option.map_eq_none_iff.mp enabled
    | lock =>
        apply inv.advances_of_contexto owner
        intro free
        simp [handle, Contexto.notificarUm, free] at enabled
    | _ => cases enabled

/-- A run of `mensagemRecebida` waits for the table's lock only. -/
theorem LockInv.advances_of_message (inv : LockInv program s) {m : MsgId}
    (progress : (s.delivery m).pc.inProgress = true) : Advances program s := by
  by_cases acquiring : (s.delivery m).pc = .acquire
  · cases acquired : s.callbackMapSlock.acquireShared (.message m) with
    | none => exact inv.advances_of_refusedShared (.message m) acquired
    | some lock =>
        apply Advances.of_step (.message m 0) rfl rfl
        simp [PahoClient.step, Connect.mensagemRecebida, acquiring, acquired]
  · apply Advances.of_step (.message m 0) rfl rfl
    exact mensagemRecebida_enabled 0 progress acquiring

/-- An outstanding command is finished and reported, at the latest when the
callback that the library is running has returned. -/
theorem LockInv.advances_of_outstanding (inv : LockInv program s) {c : CallId}
    (outstanding : (s.request c).outstanding = true) : Advances program s := by
  cases request : s.request c with
  | unissued | rejected | done =>
      rw [request] at outstanding
      cases outstanding
  | pending =>
      apply Advances.of_step (.complete c (.onFailure none)) rfl rfl
      have answered : (program.op c).answers (.onFailure none) = true := by
        cases program.op c <;> rfl
      simp [PahoClient.step, request, answered]
  | running res pc => exact inv.advances_of_running request
  | ready res =>
      cases active : s.active with
      | nil =>
          refine ⟨.deliver c, { s with active := .handler c :: s.active }.setRequest c
            (.running res .start), rfl, ?_⟩
          simp [serialStep, active, PahoClient.step, request]
      | cons agent rest =>
          have runs := inv.running agent (by rw [active]; exact List.mem_cons_self)
          cases agent with
          | call d => exact runs.elim
          | handler d =>
              obtain ⟨res, pc, running⟩ := runs
              exact inv.advances_of_running running
          | message m => exact inv.advances_of_message runs

/-! ## Blocked calls -/

/-- A call that is blocked anywhere but at `_conexao_mtx` waits for something
that can go on. -/
theorem LockInv.advances_inside (inv : LockInv program s) {c : CallId}
    (progress : (s.pc c).inProgress = true) (inside : s.pc c ≠ .lockConexao)
    (owner : owns (program.op c) (s.pc c) = true) : Advances program s := by
  by_cases blocked : Blocked (program.op c) c s
  · unfold Blocked at blocked
    split at blocked
    case h_1 pc => exact absurd pc inside
    case h_2 => exact inv.advances_of_refused (.call c) blocked
    case h_3 => exact inv.advances_of_contexto owner blocked
    case h_4 pc =>
        apply inv.advances_of_outstanding (c := c)
        have accepted := inv.inv.progress c
        rw [pc] at accepted
        rcases (inv.inv.agrees c owner).blocked with empty | ⟨_, _, notNotified⟩
        · rw [empty] at blocked
          cases blocked
        · cases request : s.request c <;>
            simp_all [PahoClient.progress, Request.accepted, Request.notified,
              Request.outstanding]
    case h_5 => exact blocked.elim
  · exact inv.advances_of_call progress blocked

/-- The holder of `_conexao_mtx` is past the statement that takes it. -/
theorem LockInv.advances_of_holder (inv : LockInv program s) {c : CallId}
    (holder : s.conexaoMtx = some c) : Advances program s := by
  have uses := inv.inv.holder c holder
  have owner := (inv.inv.mutex c uses).mpr holder
  apply inv.advances_inside _ _ owner
  · cases op : program.op c <;> cases pc : s.pc c <;>
      simp_all [owns, Pc.inProgress, Operation.usesConexao]
  · intro pc
    rw [pc] at owner
    cases op : program.op c <;> simp_all [owns, Operation.usesConexao]

/-- A call that waits for its command, or for a lock other than `_conexao_mtx`,
owns its context. -/
theorem owns_of_blocked {op : Operation} {c : CallId} (inside : belongs op (s.pc c) = true)
    (blocked : Blocked op c s) (beyond : s.pc c ≠ .lockConexao) :
    owns op (s.pc c) = true := by
  unfold Blocked at blocked
  cases op <;> cases pc : s.pc c <;> simp_all [owns, belongs]

/-- While some call has not returned, something that has begun can go on. -/
theorem LockInv.advances (inv : LockInv program s) {c : CallId}
    (progress : (s.pc c).inProgress = true) : Advances program s := by
  by_cases blocked : Blocked (program.op c) c s
  · by_cases waits : s.pc c = .lockConexao
    · simp only [Blocked, waits] at blocked
      obtain ⟨holder, held⟩ := Option.ne_none_iff_exists'.mp blocked
      exact inv.advances_of_holder held
    · exact inv.advances_inside progress waits (owns_of_blocked (inv.belongs c) blocked waits)
  · exact inv.advances_of_call progress blocked

end Progress

/-- In every state that the calls, the library and the arriving messages can
reach, a call that has not returned implies a step of a call, of a handler, of
`mensagemRecebida`, or of the library finishing or reporting a command. -/
theorem no_deadlock (program : Program) (callbackMap : CallbackMap) (conectado : Bool)
    {history : List (Event State Label)} {s : State}
    (run : Run (serialStep program) (initial callbackMap conectado) history s)
    {c : CallId} (progress : (s.pc c).inProgress = true) : Advances program s :=
  (lockInv_of_run run).advances progress

/-- Two connect calls on one client, and messages without a topic. -/
def programaBloqueado : Program where
  op _ := .conectar
  topico _ := []

/-- The first call waits, the second is behind it at `_conexao_mtx`, and the
completion is behind a message that holds the table's lock. -/
def bloqueio : List Label :=
  [.start 0, .call 0 0, .call 0 0, .call 0 0, .call 0 0, .call 0 0, .call 0 0, .start 1,
    .complete 0 (.onSuccess ⟨0, [], 0⟩), .arrive 0, .message 0 0]

theorem no_deadlock_behind_message :
    ∃ history s,
      Run (serialStep programaBloqueado) (initial (fun _ => none) false) history s ∧
        Blocked .conectar 0 s ∧ Blocked .conectar 1 s ∧ Advances programaBloqueado s := by
  obtain ⟨s, run, view⟩ := exists_run_of_execute (serialStep programaBloqueado)
    (initial (fun _ => none) false) bloqueio
    (fun s => (s.pc 0, s.pc 1, (s.contexto .conexao).finalizadaCv, s.conexaoMtx))
    (.waiting, .lockConexao, [0], some 0) (by decide)
  simp only [Prod.mk.injEq] at view
  obtain ⟨waiting, behind, queue, held⟩ := view
  refine ⟨_, s, run, ?_, ?_, ?_⟩
  · simp [Blocked, waiting, contextOf, queue]
  · simp [Blocked, behind, held]
  · apply no_deadlock _ _ _ run (c := 1)
    rw [behind]
    rfl

end PahoClient
