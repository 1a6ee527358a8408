import PahoClient.Client.Budget
import PahoClient.Properties.Progress

/-!
# Everything that begins comes to an end

Every statement of a call, of the handler of its command and of a run of
`mensagemRecebida` lowers the level of its task.  So a call executes a bounded
number of statements, and a client that is left alone settles.
-/

namespace PahoClient

open PahoClient.Transition

section Levels

variable {program : Program} {s t : State} {label : Label}

/-! ## Tasks of others -/

/-- Where a call waits, its context is its own. -/
theorem owns_of_inWait {op : Operation} {pc : Pc} (waits : pc.inWait = true) :
    owns op pc = true := by
  cases op <;> cases pc <;> simp_all [owns, Pc.inWait]

/-- The step of another task leaves the queue of a waiting call alone. -/
theorem PcInv.fila_other (pcInv : PcInv program s)
    (executed : PahoClient.step program s label = some t) {c : CallId}
    (waiting : s.pc c = .waiting) (other : label.tarefa ≠ some (.inl c)) :
    t.fila (contextOf (program.op c) c) = s.fila (contextOf (program.op c) c) := by
  have owner : owns (program.op c) (s.pc c) = true := owns_of_inWait (by rw [waiting]; rfl)
  rcases fila_cases executed (contextOf (program.op c) c) with same |
    ⟨d, ret, rfl, here, pc, _⟩ | ⟨d, rfl, here, queued, _⟩ | ⟨d, res, rfl, here, running, _⟩
  · exact same
  · have ownsOther : owns (program.op d) (s.pc d) = true := owns_of_inWait (by rw [pc]; rfl)
    cases pcInv.inv.owner_unique owner ownsOther here
    exact absurd rfl other
  · have blocked := (pcInv.inv.agrees c owner).blocked
    unfold State.fila at queued
    rcases blocked with empty | ⟨only, _, _⟩
    · rw [empty] at queued
      cases queued
    · rw [only] at queued
      cases List.mem_singleton.mp queued
      exact absurd rfl other
  · have ownsOther : owns (program.op d) (s.pc d) = true :=
      pcInv.inv.owns_of_outstanding (by rw [running]; rfl)
    cases pcInv.inv.owner_unique owner ownsOther here
    exact absurd rfl other

/-- Only the wait itself depends on the queue. -/
theorem callLevel_of_not_waiting (op : Operation) (first second : Bool) {pc : Pc}
    (elsewhere : pc ≠ .waiting) : callLevel op first pc = callLevel op second pc := by
  cases pc with
  | waiting => exact absurd rfl elsewhere
  | acquire laco | loop laco | release laco => cases laco <;> rfl
  | _ => rfl

/-- A step does not change the level of a task that it does not belong to. -/
theorem PcInv.nivel_other (pcInv : PcInv program s)
    (executed : PahoClient.step program s label = some t) {tarefa : Tarefa}
    (other : label.tarefa ≠ some tarefa) : nivel program t tarefa = nivel program s tarefa := by
  cases tarefa with
  | inl c =>
      obtain ⟨pc, request⟩ := same_of_other executed other
      simp only [nivel, pc, request]
      by_cases waiting : s.pc c = .waiting
      · have queue := pcInv.fila_other executed waiting other
        unfold State.fila at queue
        simp only [State.naFila, queue]
      · rw [callLevel_of_not_waiting _ _ (s.naFila (program.op c) c) waiting]
  | inr m =>
      have delivery : t.delivery m = s.delivery m := by
        rcases delivery_cases executed m with ⟨same, _⟩ | ⟨rfl, _, _⟩ | ⟨ret, rfl, _⟩
        · exact same
        · exact absurd rfl other
        · exact absurd rfl other
      simp only [nivel, delivery]

/-! ## The task of a call -/

/-- Outside `esperar` and the command every statement lowers the level. -/
theorem callLevel_callNext {op : Operation} {c : CallId} (ret : Int) (before after : Bool)
    (inside : belongs op (s.pc c) = true) (progress : (s.pc c).inProgress = true)
    (notCommand : s.pc c ≠ .command) (notWaiting : (s.pc c).inFrame = false) :
    callLevel op after (callNext op c ret s) + 1 ≤ callLevel op before (s.pc c) := by
  cases pc : s.pc c with
  | acquire laco | loop laco | release laco =>
      cases op <;> cases laco <;>
        simp_all [belongs, callNext, callLevel, Operation.saida, Operation.usesConexao]
  | testVazio | testConectado | setCallbacks =>
      cases op <;> simp_all [belongs, callNext] <;> split_ifs <;> simp [callLevel]
  | lockConexao | unlockConexao =>
      cases op <;> simp_all [belongs, callNext, callLevel]
  | idle | returned =>
      rw [pc] at progress
      cases progress
  | command => exact absurd pc notCommand
  | waitLock | waitTest | waiting | waitUnlock =>
      rw [pc] at notWaiting
      cases notWaiting

/-- Handing the command to the library leaves enough for its handler. -/
theorem callLevel_command {op : Operation} {c : CallId} (ret : Int) (before after : Bool)
    (command : s.pc c = .command) :
    callLevel op after (callNext op c ret s) +
        requestLevel op (if ret = MQTTASYNC_SUCCESS then .pending else .rejected ret) + 1 ≤
      callLevel op before (s.pc c) := by
  by_cases success : ret = MQTTASYNC_SUCCESS <;>
    cases op <;>
    simp [callNext, command, success, callLevel, requestLevel, Operation.saida,
      Operation.usesConexao, Operation.antesDeGuardar]

/-- A statement of `esperar` lowers the level, given what it does to the
queue. -/
theorem callLevel_esperar {op : Operation} {c : CallId} {ret : Int}
    (executed : PahoClient.step program s (.call c ret) = some t) (opEq : program.op c = op)
    (frame : (s.pc c).inFrame = true) :
    callLevel op (t.naFila op c) (callNext op c ret s) + 1 ≤
      callLevel op (s.naFila op c) (s.pc c) := by
  subst op
  rw [callNext_of_inFrame _ _ _ _ frame]
  cases pc : s.pc c with
  | waitLock =>
      simp only [waitNext, callLevel]
      omega
  | waitTest =>
      simp only [waitNext]
      split
      · simp only [callLevel]
        omega
      · rename_i clear
        have queued : t.naFila (program.op c) c = true := by
          have executed : despachar (program.op c) c ret s = some t := executed
          rw [despachar_of_inFrame frame, Contexto.esperar, pc] at executed
          simp only [clear] at executed
          cases executed
          simp [State.naFila, State.setPc, State.setContexto]
        simp only [callLevel, queued, if_true]
        omega
  | waiting =>
      have notQueued : s.naFila (program.op c) c = false := by
        have executed : despachar (program.op c) c ret s = some t := executed
        rw [despachar_of_inFrame frame, Contexto.esperar, pc] at executed
        dsimp only at executed
        split at executed
        · cases executed
        · simpa [State.naFila]
      simp only [waitNext, callLevel, notQueued, Bool.false_eq_true, if_false]
      omega
  | waitUnlock res =>
      cases program.op c <;>
        simp [waitNext, callLevel, Operation.saida, Operation.usesConexao]
  | _ =>
      rw [pc] at frame
      cases frame

/-- A statement of a call lowers the level of its task. -/
theorem PcInv.nivel_call (pcInv : PcInv program s) {c : CallId} {ret : Int}
    (executed : PahoClient.step program s (.call c ret) = some t) :
    nivel program t (.inl c) + 1 ≤ nivel program s (.inl c) := by
  have pc := pc_of_call executed
  have request := request_of_call executed
  have progress : (s.pc c).inProgress = true := by
    by_contra resting
    rw [Bool.not_eq_true] at resting
    have refused := despachar_of_resting (program.op c) ret resting
    exact absurd (refused.symm.trans executed) (by simp)
  simp only [nivel, pc, request]
  by_cases command : s.pc c = .command
  · rw [if_pos command, pcInv.inv.unissued_of_command command]
    exact callLevel_command ret _ _ command
  · rw [if_neg command]
    by_cases frame : (s.pc c).inFrame = true
    · have lowered := callLevel_esperar executed rfl frame
      omega
    · rw [Bool.not_eq_true] at frame
      have lowered := callLevel_callNext ret (s.naFila (program.op c) c)
        (t.naFila (program.op c) c) (pcInv.belongs c) progress command frame
      omega

/-- The start of a call brings the statements of its operation. -/
theorem nivel_start {c : CallId} (executed : PahoClient.step program s (.start c) = some t) :
    nivel program t (.inl c) = nivel program s (.inl c) + (program.op c).instrucoes := by
  cases step_effect executed with
  | start idle =>
      simp only [nivel, State.setPc, Function.update_self, callLevel_entry, idle]
      simp only [callLevel]
      omega

/-- A spurious wake-up costs one more round of the wait. -/
theorem nivel_wake {c : CallId} (executed : PahoClient.step program s (.wake c) = some t) :
    nivel program t (.inl c) ≤ nivel program s (.inl c) + 3 := by
  cases step_effect executed with
  | wake x =>
      simp only [nivel, State.setContexto]
      cases pc : s.pc c with
      | waiting =>
          simp only [callLevel]
          split_ifs <;> omega
      | _ =>
          rw [callLevel_of_not_waiting _ _ (s.naFila (program.op c) c) (by simp)]
          omega

/-- The library lowers the level of a task that it advances. -/
theorem nivel_library {c : CallId} (pc : t.pc = s.pc) (contexto : t.contexto = s.contexto)
    (lowered : requestLevel (program.op c) (t.request c) + 1 ≤
      requestLevel (program.op c) (s.request c)) :
    nivel program t (.inl c) + 1 ≤ nivel program s (.inl c) := by
  simp only [nivel, State.naFila, pc, contexto]
  omega

theorem nivel_complete {c : CallId} {res : Completion}
    (executed : PahoClient.step program s (.complete c res) = some t) :
    nivel program t (.inl c) + 1 ≤ nivel program s (.inl c) := by
  cases step_effect executed with
  | complete pending answered =>
      refine nivel_library rfl rfl ?_
      simp only [State.setRequest, Function.update_self, pending, requestLevel]
      omega

theorem nivel_deliver {c : CallId}
    (executed : PahoClient.step program s (.deliver c) = some t) :
    nivel program t (.inl c) + 1 ≤ nivel program s (.inl c) := by
  cases step_effect executed with
  | deliver ready =>
      refine nivel_library rfl rfl ?_
      simp only [State.setRequest, Function.update_self, ready, requestLevel, handlerLevel]
      omega

/-- The first statement of a handler leads to its erasure loop or to the store. -/
theorem handlerLevel_handlerOf (op : Operation) (res : Completion) :
    handlerLevel op (handlerOf op res) + 1 ≤ handlerLevel op .start := by
  cases op with
  | subscribe args =>
      cases res with
      | onFailure res => exact le_refl _
      | onSuccess res =>
          by_cases refused : Subscribe.recusado args res = true <;>
            simp [handlerOf, Subscribe.sucesso, refused, handlerLevel, Operation.antesDeGuardar]
  | conectar | unsubscribe | desconectar => cases res <;> exact le_refl _

/-- A statement of a handler lowers its level, and the notification lowers it by
the three statements that it gives back to the call. -/
theorem requestLevel_handlerNext (op : Operation) (res : Completion) (pc : HandlerPc) :
    requestLevel op (handlerNext op res pc) + (if pc = .notify then 4 else 1) ≤
      requestLevel op (.running res pc) := by
  cases pc with
  | start => exact handlerLevel_handlerOf op res
  | _ => simp [handlerNext, requestLevel, handlerLevel]

/-- Leaving the queue raises the level of a call by three at most. -/
theorem callLevel_le_add (op : Operation) (before after : Bool) (pc : Pc) :
    callLevel op after pc ≤ callLevel op before pc + 3 := by
  cases pc with
  | waiting =>
      simp only [callLevel]
      split_ifs <;> omega
  | _ =>
      rw [callLevel_of_not_waiting op after before (by simp)]
      omega

theorem nivel_handler {c : CallId}
    (executed : PahoClient.step program s (.handler c) = some t) :
    nivel program t (.inl c) + 1 ≤ nivel program s (.inl c) := by
  obtain ⟨res, pc, running, moved, pcEq⟩ := request_of_handler executed
  have handled : handle (program.op c) c res pc s = some t := by
    simpa only [PahoClient.step, running] using executed
  have lowered := requestLevel_handlerNext (program.op c) res pc
  simp only [nivel, pcEq, moved, running]
  rcases (handle_effect handled).fila (contextOf (program.op c) c) with same | ⟨_, rfl, _⟩
  · have queued : t.naFila (program.op c) c = s.naFila (program.op c) c := by
      unfold State.fila at same
      simp only [State.naFila, same]
    rw [queued]
    split_ifs at lowered <;> omega
  · have raised := callLevel_le_add (program.op c) (s.naFila (program.op c) c)
      (t.naFila (program.op c) c) (s.pc c)
    rw [if_pos rfl] at lowered
    omega

/-! ## The task of a message -/

theorem nivel_message {m : MsgId} {ret : Int}
    (executed : PahoClient.step program s (.message m ret) = some t) :
    nivel program t (.inr m) + 1 ≤ nivel program s (.inr m) := by
  have messageStep : Connect.mensagemRecebida (program.chave m) m ret s = some t := executed
  have moved := (mensagemRecebida_effect messageStep).delivery
  simp only [nivel, moved, Function.update_self]
  cases pc : (s.delivery m).pc with
  | idle | finished => simp [Connect.mensagemRecebida, pc] at messageStep
  | call | test =>
      simp only [messageNext, pc]
      split <;> simp [messageLevel]
  | _ => simp [messageNext, pc, messageLevel]

/-! ## All tasks -/

/-- The potential of the client. -/
theorem pays (program : Program) :
    Pays (PahoClient.step program) (PcInv program) Label.tarefa
      (fun label => if label.advances then 1 else 0) (Label.acrescimo program)
      (nivel program) where
  kept pcInv executed := pcInv.step executed
  other pcInv executed other := (pcInv.nivel_other executed other).le
  own := by
    intro s t label tarefa pcInv executed owned
    cases label with
    | start c =>
        cases Option.some.inj owned
        exact (nivel_start executed).le
    | call c ret =>
        cases Option.some.inj owned
        exact pcInv.nivel_call executed
    | wake c =>
        cases Option.some.inj owned
        exact nivel_wake executed
    | complete c res =>
        cases Option.some.inj owned
        exact nivel_complete executed
    | deliver c =>
        cases Option.some.inj owned
        exact nivel_deliver executed
    | handler c =>
        cases Option.some.inj owned
        exact nivel_handler executed
    | arrive m =>
        cases Option.some.inj owned
        cases step_effect executed with
        | arrive idle => simp [nivel, State.setDelivery, messageLevel, Label.acrescimo,
            Label.advances]
    | message m ret =>
        cases Option.some.inj owned
        exact nivel_message executed
    | network conectado => cases owned

end Levels

/-! ## Counting -/

/-- The statements of one task in a history: those of the call or of
`mensagemRecebida`, those of the handler, and the two by which the library
finishes and reports the command. -/
def passos (tarefa : Tarefa) (history : List (Event State Label)) : Nat :=
  history.countP fun event => decide (event.label.tarefa = some tarefa) && event.label.advances

/-- How often a label occurs in a history. -/
def ocorrencias (label : Label) (history : List (Event State Label)) : Nat :=
  history.countP fun event => decide (event.label = label)

theorem share_advances (tarefa : Tarefa) (history : List (Event State Label)) :
    share Label.tarefa (fun label => if label.advances then 1 else 0) tarefa history =
      passos tarefa history := by
  have owned : ownedBy Label.tarefa (fun label => if label.advances then 1 else 0) tarefa =
      fun label => if decide (label.tarefa = some tarefa) && label.advances then 1 else 0 := by
    funext label
    by_cases own : label.tarefa = some tarefa <;> simp [ownedBy, own]
  rw [share, owned, total_ite, Nat.one_mul, passos]

theorem share_acrescimo_call (program : Program) (c : CallId)
    (history : List (Event State Label)) :
    share Label.tarefa (Label.acrescimo program) (.inl c) history =
      (program.op c).instrucoes * ocorrencias (.start c) history +
        3 * ocorrencias (.wake c) history := by
  have owned : ownedBy Label.tarefa (Label.acrescimo program) (.inl c) = fun label =>
      (if decide (label = .start c) then (program.op c).instrucoes else 0) +
        if decide (label = .wake c) then 3 else 0 := by
    funext label
    cases label with
    | start d | wake d =>
        by_cases own : d = c <;> simp [ownedBy, Label.tarefa, Label.acrescimo, own]
    | _ => simp [ownedBy, Label.tarefa, Label.acrescimo]
  rw [share, owned, total_add, total_ite, total_ite, ocorrencias, ocorrencias]

theorem share_acrescimo_message (program : Program) (m : MsgId)
    (history : List (Event State Label)) :
    share Label.tarefa (Label.acrescimo program) (.inr m) history =
      8 * ocorrencias (.arrive m) history := by
  have owned : ownedBy Label.tarefa (Label.acrescimo program) (.inr m) = fun label =>
      if decide (label = .arrive m) then 8 else 0 := by
    funext label
    cases label with
    | arrive n => by_cases own : n = m <;> simp [ownedBy, Label.tarefa, Label.acrescimo, own]
    | _ => simp [ownedBy, Label.tarefa, Label.acrescimo]
  rw [share, owned, total_ite, ocorrencias]

section Once

variable {program : Program} {s : State} {callbackMap : CallbackMap} {conectado : Bool}
  {history : List (Event State Label)}

/-- A call starts once. -/
theorem ocorrencias_start (run : Run (step program) (initial callbackMap conectado) history s)
    (c : CallId) : ocorrencias (.start c) history ≤ if s.pc c = .idle then 0 else 1 := by
  induction run with
  | refl => exact Nat.zero_le _
  | @tail history source target label earlier executed ih =>
      rw [ocorrencias, List.countP_cons, ← ocorrencias]
      by_cases own : label = .start c
      · subst label
        cases step_effect executed with
        | start idle =>
            have entered : (source.setPc c (entry (program.op c))).pc c ≠ .idle := by
              cases op : program.op c <;> simp [State.setPc, entry]
            rw [if_pos idle] at ih
            rw [if_neg entered]
            simpa using ih
      · have still : target.pc c = .idle → source.pc c = .idle := by
          intro idle
          by_contra started
          exact started_step executed started idle
        simp only [own, decide_false, Bool.false_eq_true, if_false, Nat.add_zero]
        split at ih <;> split <;> simp_all

theorem messageNext_ne_idle (chave : StdString) (map : CallbackMap) (ret : Int)
    {delivery : Delivery} (entered : delivery.pc ≠ .idle) :
    (messageNext chave map ret delivery).pc ≠ .idle := by
  unfold messageNext
  split <;> try split
  all_goals simp_all

/-- The library enters a run of `mensagemRecebida` once. -/
theorem ocorrencias_arrive (run : Run (step program) (initial callbackMap conectado) history s)
    (m : MsgId) : ocorrencias (.arrive m) history ≤ if (s.delivery m).pc = .idle then 0 else 1 := by
  induction run with
  | refl => exact Nat.zero_le _
  | @tail history source target label earlier executed ih =>
      rw [ocorrencias, List.countP_cons, ← ocorrencias]
      rcases delivery_cases executed m with ⟨same, _⟩ | ⟨rfl, idle, moved⟩ | ⟨ret, rfl, moved⟩
      · have other : label ≠ .arrive m := by
          rintro rfl
          cases step_effect executed with
          | arrive idle =>
              have moved := congrArg Delivery.pc same
              rw [idle] at moved
              simp [State.setDelivery] at moved
        simpa [same, other] using ih
      · rw [if_pos idle] at ih
        simpa [moved] using ih
      · have entered : (source.delivery m).pc ≠ .idle := by
          intro idle
          have messageStep : Connect.mensagemRecebida (program.chave m) m ret source =
            some target := executed
          simp [Connect.mensagemRecebida, idle] at messageStep
        rw [if_neg entered] at ih
        rw [moved, if_neg (messageNext_ne_idle _ _ _ entered)]
        simpa using ih

end Once

/-- A call, the handler of its command and the library on their behalf execute
at most the statements of the operation, three more for each spurious wake-up of
the call; a run of `mensagemRecebida` executes at most eight.  Whatever the
other threads do, nothing loops.  A loop over the table counts as one
statement. -/
theorem bounded_statements (program : Program) (callbackMap : CallbackMap) (conectado : Bool)
    {history : List (Event State Label)} {s : State}
    (run : Run (step program) (initial callbackMap conectado) history s) :
    (∀ c, passos (.inl c) history ≤
      (program.op c).instrucoes + 3 * ocorrencias (.wake c) history) ∧
    ∀ m, passos (.inr m) history ≤ 8 := by
  have start : PcInv program (initial callbackMap conectado) :=
    pcInv_initial program callbackMap conectado
  constructor
  · intro c
    have bounded := (pays program).share run start (.inl c)
    have once := ocorrencias_start run c
    have single : ocorrencias (.start c) history ≤ 1 := by
      split at once <;> omega
    rw [share_advances, share_acrescimo_call] at bounded
    have empty : nivel program (initial callbackMap conectado) (.inl c) = 0 := rfl
    have price := Nat.mul_le_mul_left (program.op c).instrucoes single
    omega
  · intro m
    have bounded := (pays program).share run start (.inr m)
    have once := ocorrencias_arrive run m
    have single : ocorrencias (.arrive m) history ≤ 1 := by
      split at once <;> omega
    rw [share_advances, share_acrescimo_message] at bounded
    have empty : nivel program (initial callbackMap conectado) (.inr m) = 0 := rfl
    omega

/-- One topic for the first call, connects for the others, and messages without
a topic. -/
def programaContado : Program where
  op c := if c = 0 then .subscribe (.ofPairs [([97], ⟨1⟩)]) else .conectar
  topico _ := []

/-- The first call blocks before the library refuses its command, so that both
the call and its handler run all their statements. -/
def inscricaoCompleta : List Label :=
  Label.start 0 :: List.replicate 7 (Label.call 0 0) ++
    [Label.complete 0 (.onFailure none), .deliver 0] ++ List.replicate 9 (Label.handler 0) ++
    List.replicate 4 (Label.call 0 0)

theorem bounded_statements_reached :
    ∃ history s, Run (step programaContado) (initial (fun _ => none) true) history s ∧
      s.pc 0 = .returned false ∧ passos (.inl 0) history = 22 ∧
      passos (.inl 0) history ≤
        (programaContado.op 0).instrucoes + 3 * ocorrencias (.wake 0) history := by
  obtain ⟨s, run, returned⟩ := exists_run_of_execute (step programaContado)
    (initial (fun _ => none) true) inscricaoCompleta (fun s => s.pc 0) (.returned false)
    (by decide)
  refine ⟨_, s, run, returned, by decide, ?_⟩
  exact (bounded_statements programaContado _ _ run).1 0

/-! ## A client that is left alone -/

/-- No call, no command and no message is under way. -/
structure Assentado (s : State) : Prop where
  call : ∀ c, (s.pc c).inProgress = false
  request : ∀ c, (s.request c).outstanding = false
  message : ∀ m, (s.delivery m).pc.inProgress = false

/-- Where nothing can go on, nothing is under way. -/
theorem LockInv.assentado {program : Program} {s : State} (inv : LockInv program s)
    (stuck : ¬ Advances program s) : Assentado s where
  call c := by
    by_contra progress
    exact stuck (inv.advances (eq_true_of_ne_false progress))
  request c := by
    by_contra outstanding
    exact stuck (inv.advances_of_outstanding (eq_true_of_ne_false outstanding))
  message m := by
    by_contra progress
    exact stuck (inv.advances_of_message (eq_true_of_ne_false progress))

/-- No call starts, no message arrives and no wake-up is spurious. -/
def Label.quieto : Label → Bool
  | .start _ | .arrive _ | .wake _ => false
  | _ => true

theorem quieto_of_advances {label : Label} (advances : label.advances = true) :
    label.quieto = true := by
  cases label with
  | start | arrive | wake => cases advances
  | _ => rfl

/-- The statements of a history, of all tasks together. -/
def avancos (history : List (Event State Label)) : Nat :=
  history.countP fun event => event.label.advances

/-- What the starts, the arrivals and the spurious wake-ups of a history bring. -/
def limite (program : Program) (history : List (Event State Label)) : Nat :=
  total (Label.acrescimo program) history

theorem avancos_le_limite {program : Program} {callbackMap : CallbackMap} {conectado : Bool}
    {history : List (Event State Label)} {s : State}
    (run : Run (serialStep program) (initial callbackMap conectado) history s) :
    avancos history ≤ limite program history := by
  have owned : ∀ label : Label, (if label.advances then 1 else 0) ≠ 0 →
      label.tarefa.isSome = true := by
    intro label
    cases label <;> simp [Label.advances, Label.tarefa]
  have bounded := (pays program).total
    (run.mono fun _ _ _ executed => step_of_serialStep executed)
    (pcInv_initial program callbackMap conectado) (fun tarefa => by cases tarefa <;> rfl) owned
  rwa [total_ite, Nat.one_mul] at bounded

/-- Steps that bring nothing new leave the limit where it is. -/
theorem limite_append_quieto (program : Program) {later : List (Event State Label)}
    (quiet : ∀ event ∈ later, event.label.quieto = true) (history : List (Event State Label)) :
    limite program (later ++ history) = limite program history := by
  have free : total (Label.acrescimo program) later = 0 := by
    apply total_eq_zero
    intro event member
    have quieto := quiet event member
    cases label : event.label <;> simp_all [Label.quieto, Label.acrescimo]
  rw [limite, total_append, free, Nat.zero_add, limite]

/-- Once no call starts, no message arrives and no wake-up is spurious, whatever
order the steps take: the statements still to come are bounded by what the past
has left over, nothing stops before every call has returned, every accepted
command has been reported and every message is finished, and so the client can
always be brought there.  The application callbacks return without calling the
client. -/
theorem settles (program : Program) (callbackMap : CallbackMap) (conectado : Bool)
    {history : List (Event State Label)} {s : State}
    (run : Run (serialStep program) (initial callbackMap conectado) history s) :
    (∀ later t, Run (serialStep program) s later t →
      (∀ event ∈ later, event.label.quieto = true) →
        avancos later + avancos history ≤ limite program history ∧
          (Assentado t ∨ Advances program t)) ∧
    ∃ later t, Run (serialStep program) s later t ∧
      (∀ event ∈ later, event.label.advances = true) ∧ Assentado t := by
  have bounded : ∀ later t, Run (serialStep program) s later t →
      (∀ event ∈ later, event.label.quieto = true) →
        avancos later + avancos history ≤ limite program history := by
    intro later t continued quiet
    have whole := avancos_le_limite (run.trans continued)
    rwa [limite_append_quieto program quiet, avancos, List.countP_append] at whole
  constructor
  · intro later t continued quiet
    refine ⟨bounded later t continued quiet, ?_⟩
    by_cases goes : Advances program t
    · exact Or.inr goes
    · exact Or.inl ((lockInv_of_run (run.trans continued)).assentado goes)
  · obtain ⟨later, t, continued, advancing, stuck⟩ := exists_maximal Label.advances
      (limite program history) fun later t continued advancing => by
        have short := bounded later t continued fun event member =>
          quieto_of_advances (advancing event member)
        have all : avancos later = later.length := List.countP_eq_length.mpr advancing
        omega
    refine ⟨later, t, continued, advancing, ?_⟩
    apply (lockInv_of_run (run.trans continued)).assentado
    rintro ⟨label, target, advances, executed⟩
    rw [stuck label advances] at executed
    cases executed

theorem settles_behind_message :
    ∃ history s, Run (serialStep programaContado) (initial (fun _ => none) false) history s ∧
      ¬ Assentado s ∧
      ∃ later t, Run (serialStep programaContado) s later t ∧
        (∀ event ∈ later, event.label.advances = true) ∧ Assentado t := by
  obtain ⟨s, run, waits⟩ := exists_run_of_execute (serialStep programaContado)
    (initial (fun _ => none) false)
    [.start 1, .call 1 0, .start 2, .arrive 0, .message 0 0, .start 0, .call 0 0]
    (fun s => s.pc 0) (.acquire .inserir) (by decide)
  refine ⟨_, s, run, ?_, (settles programaContado _ _ run).2⟩
  intro settled
  have returned := settled.call 0
  rw [waits] at returned
  cases returned

end PahoClient
