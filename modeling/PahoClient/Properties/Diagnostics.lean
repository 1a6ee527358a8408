import PahoClient.Client.Output

/-!
# Which failures are reported

A call that fails writes one line on `std::cerr`, by itself or through its
handler, and a call that succeeds writes none.  The exception is a subscribe
command that the library rejects: its message is built and never written.
-/

namespace PahoClient

open PahoClient.Transition

/-- The error lines that a call and its handler have written when they are at
given positions. -/
def errosDevidos (op : Operation) : Pc → Request → Nat
  | .unlockConexao false, .unissued | .returned false, .unissued => 1
  | _, .unissued => 0
  | _, .rejected _ =>
      match op with
      | .subscribe _ => 0
      | .conectar | .unsubscribe _ | .desconectar => 1
  | _, .pending | _, .ready _ | _, .running _ .start => 0
  | _, .running res _ | _, .done res => if op.outcome res then 0 else 1

section Lines

variable {program : Program} {s t : State} {ambiente : Ambiente} {c : CallId}

theorem erros_append (first second : List Escrita) :
    erros (first ++ second) = erros first ++ erros second :=
  List.filter_append ..

/-- Once the command is issued the position of the call does not matter. -/
theorem errosDevidos_of_issued {op : Operation} {request : Request}
    (issued : request ≠ .unissued) (first second : Pc) :
    errosDevidos op first request = errosDevidos op second request := by
  cases request with
  | unissued => exact absurd rfl issued
  | rejected => cases op <;> simp [errosDevidos]
  | running res pc => cases pc <;> simp [errosDevidos]
  | _ => simp [errosDevidos]

/-- After its command a call writes nothing more. -/
theorem escreve_of_issued {op : Operation} {pc : Pc} {request : Request}
    (position : progress op pc request) (issued : request ≠ .unissued) (ret : Int) :
    despachar.escreve ambiente ret op pc = [] := by
  cases pc with
  | setCallbacks | command | testVazio => exact absurd position issued
  | _ => cases op <;> rfl

/-- The lines of the statement that issues the command. -/
theorem erros_command {op : Operation} (ret : Int) (pc : Pc) :
    (erros (despachar.escreve ambiente ret op .command)).length =
      errosDevidos op pc (if ret = MQTTASYNC_SUCCESS then .pending else .rejected ret) := by
  by_cases success : ret = MQTTASYNC_SUCCESS
  · cases op <;> simp [despachar.escreve, success, erros, errosDevidos]
  · cases op <;> simp [despachar.escreve, success, erros, errosDevidos]

/-- The lines of a statement of a call that has not issued its command. -/
theorem erros_before_command {op : Operation} (ret : Int)
    (inside : belongs op (s.pc c) = true) (position : progress op (s.pc c) .unissued)
    (notCommand : s.pc c ≠ .command) :
    (erros (despachar.escreve ambiente ret op (s.pc c))).length +
        errosDevidos op (s.pc c) .unissued =
      errosDevidos op (callNext op c ret s) .unissued := by
  cases pc : s.pc c with
  | testVazio =>
      cases op with
      | subscribe args =>
          cases empty : args.topicos.isEmpty <;>
            simp_all [callNext, despachar.escreve, erros, errosDevidos]
      | _ => simp_all [belongs]
  | setCallbacks =>
      cases op with
      | conectar =>
          by_cases success : ret = MQTTASYNC_SUCCESS <;>
            simp_all [callNext, despachar.escreve, erros, errosDevidos]
      | _ => simp_all [belongs]
  | testConectado =>
      cases op <;> simp_all [belongs, callNext, despachar.escreve, erros] <;>
        split_ifs <;> simp [errosDevidos]
  | unlockConexao res | returned res =>
      cases op <;> cases res <;>
        simp_all [belongs, callNext, waitNext, despachar.escreve, erros, errosDevidos]
  | acquire laco | loop laco | release laco =>
      cases op <;> cases laco <;>
        simp_all [belongs, callNext, despachar.escreve, erros, errosDevidos, progress]
  | idle | lockConexao =>
      cases op <;> simp_all [belongs, callNext, waitNext, despachar.escreve, erros, errosDevidos]
  | command => exact absurd pc notCommand
  | waitLock | waitTest | waiting | waitUnlock =>
      simp [pc, progress, Request.accepted] at position

/-- The lines of a statement of a call. -/
theorem PcInv.erros_call (pcInv : PcInv program s) {ret : Int}
    (executed : PahoClient.step program s (.call c ret) = some t) :
    (erros (escritas program ambiente s (.call c ret))).length +
        errosDevidos (program.op c) (s.pc c) (s.request c) =
      errosDevidos (program.op c) (t.pc c) (t.request c) := by
  have position := pcInv.inv.progress c
  rw [request_of_call executed, pc_of_call executed]
  simp only [escritas]
  by_cases command : s.pc c = .command
  · rw [if_pos command, pcInv.inv.unissued_of_command command, command]
    exact erros_command ret _
  · rw [if_neg command]
    by_cases issued : s.request c = .unissued
    · rw [issued] at position ⊢
      exact erros_before_command ret (pcInv.belongs c) position command
    · rw [escreve_of_issued position issued]
      simpa [erros] using errosDevidos_of_issued issued _ _

theorem handlerOf_ne_start (op : Operation) (res : Completion) : handlerOf op res ≠ .start := by
  cases op with
  | subscribe args =>
      cases res with
      | onFailure data => exact HandlerPc.noConfusion
      | onSuccess data =>
          simp only [handlerOf, Subscribe.sucesso]
          split <;> exact HandlerPc.noConfusion
  | conectar | unsubscribe | desconectar => cases res <;> exact HandlerPc.noConfusion

/-- The lines of a statement of a handler. -/
theorem PcInv.erros_handler (pcInv : PcInv program s)
    (executed : PahoClient.step program s (.handler c) = some t) :
    (erros (escritas program ambiente s (.handler c))).length +
        errosDevidos (program.op c) (s.pc c) (s.request c) =
      errosDevidos (program.op c) (t.pc c) (t.request c) := by
  obtain ⟨res, pc, running, next, _⟩ := request_of_handler executed
  simp only [escritas, running, next]
  have alive : (s.pc c).inProgress = true := by
    have position := pcInv.inv.progress c
    rw [running] at position
    cases pc : s.pc c with
    | idle | returned => simp [pc, progress] at position
    | _ => rfl
  cases pc with
  | start =>
      have handler := handlerOf_ne_start (program.op c) res
      rw [erros_relatorio ambiente alive]
      simp only [handlerNext]
      cases after : handlerOf (program.op c) res with
      | start => exact absurd after handler
      | _ => simp [errosDevidos]
  | _ => simp [erros, errosDevidos, handlerNext]

/-- A step writes what the positions after it demand. -/
theorem PcInv.erros_step (pcInv : PcInv program s) {label : Label}
    (executed : PahoClient.step program s label = some t)
    (own : label.tarefa = some (.inl c)) :
    (erros (escritas program ambiente s label)).length +
        errosDevidos (program.op c) (s.pc c) (s.request c) =
      errosDevidos (program.op c) (t.pc c) (t.request c) := by
  cases label with
  | call d ret =>
      cases own
      exact pcInv.erros_call executed
  | handler d =>
      cases own
      exact pcInv.erros_handler executed
  | start d =>
      cases own
      cases step_effect executed with
      | start idle =>
          have position := pcInv.inv.progress c
          rw [idle] at position
          cases op : program.op c <;>
            simp_all [escritas, erros, State.setPc, entry, errosDevidos, progress]
  | wake d =>
      cases own
      cases step_effect executed with
      | wake => simp [escritas, erros, State.setContexto]
  | complete d res =>
      cases own
      cases step_effect executed with
      | complete pending => simp [escritas, erros, State.setRequest, pending, errosDevidos]
  | deliver d =>
      cases own
      cases step_effect executed with
      | deliver ready => simp [escritas, erros, State.setRequest, ready, errosDevidos]
  | arrive | message | network => cases own

/-- The lines written so far are those that the positions demand. -/
theorem erros_of_run {callbackMap : CallbackMap} {conectado : Bool}
    {history : List (Event State Label)}
    (run : Run (step program) (initial callbackMap conectado) history s) :
    (erros (escritasDe program ambiente c history)).length =
      errosDevidos (program.op c) (s.pc c) (s.request c) := by
  induction run with
  | refl => rfl
  | @tail history source target label earlier executed ih =>
      rw [escritasDe]
      by_cases own : label.tarefa = some (.inl c)
      · rw [if_pos own, erros_append, List.length_append, ih]
        exact (pcInv_of_run earlier).erros_step executed own
      · obtain ⟨pc, request⟩ := same_of_other executed own
        rw [if_neg own, pc, request, ih]

end Lines

theorem errosDevidos_le_one (op : Operation) (pc : Pc) (request : Request) :
    errosDevidos op pc request ≤ 1 := by
  unfold errosDevidos
  split
  case h_4 => split <;> omega
  case h_8 | h_9 => split <;> omega
  all_goals omega

/-- A call that has returned has written nothing if it succeeded, or if its
subscribe command was rejected. -/
theorem errosDevidos_eq_zero_iff {op : Operation} {value : Bool} {request : Request}
    (position : progress op (.returned value) request) :
    errosDevidos op (.returned value) request = 0 ↔
      value = true ∨ ∃ args ret, op = .subscribe args ∧ request = .rejected ret := by
  rcases position with rfl | ⟨ret, rfl, rfl⟩ | ⟨res, rfl, rfl⟩
  · cases value <;> simp [errosDevidos]
  · cases op <;> simp [errosDevidos]
  · cases outcome : op.outcome res <;> simp [errosDevidos, outcome]

/-- Every failure is reported, once: a call that has returned `false` has written
one line on `std::cerr`, by itself or through its handler, unless it is a
subscribe call whose command the library rejected, which writes none; a call that
has returned `true` has written none, and no call ever writes two. -/
theorem failures_are_reported (program : Program) (ambiente : Ambiente)
    (callbackMap : CallbackMap) (conectado : Bool) {history : List (Event State Label)}
    {s : State} (run : Run (step program) (initial callbackMap conectado) history s)
    (c : CallId) :
    (erros (escritasDe program ambiente c history)).length ≤ 1 ∧
    (s.pc c = .returned true → erros (escritasDe program ambiente c history) = []) ∧
    (s.pc c = .returned false →
      (erros (escritasDe program ambiente c history) = [] ↔
        ∃ args ret, program.op c = .subscribe args ∧ s.request c = .rejected ret)) := by
  have lines : (erros (escritasDe program ambiente c history)).length =
      errosDevidos (program.op c) (s.pc c) (s.request c) := erros_of_run run
  have position := (pcInv_of_run run).inv.progress c
  refine ⟨?_, ?_, ?_⟩
  · rw [lines]
    exact errosDevidos_le_one _ _ _
  · intro returned
    rw [returned] at lines position
    rw [← List.length_eq_zero_iff, lines]
    exact (errosDevidos_eq_zero_iff position).mpr (Or.inl rfl)
  · intro returned
    rw [returned] at lines position
    rw [← List.length_eq_zero_iff, lines, errosDevidos_eq_zero_iff position]
    simp

/-- A subscribe call, and unsubscribe calls. -/
def programaDeErros : Program where
  op c := if c = 0 then .subscribe (.ofPairs [([97], ⟨1⟩)]) else .unsubscribe [[97]]
  topico _ := []

/-- The library rejects both commands. -/
def comandosRejeitados : List Label :=
  Label.start 0 :: List.replicate 4 (Label.call 0 0) ++ List.replicate 4 (Label.call 0 (-1)) ++
    [Label.start 1, .call 1 (-1)]

/-- The broker of the test program. -/
def ambienteLocal : Ambiente :=
  ⟨literal "tcp://127.0.0.1", fun _ => literal "Failure"⟩

theorem failures_are_reported_rejected :
    ∃ history s, Run (step programaDeErros) (initial (fun _ => none) true) history s ∧
      erros (escritasDe programaDeErros ambienteLocal 0 history) = [] ∧
      (erros (escritasDe programaDeErros ambienteLocal 1 history)).length = 1 := by
  obtain ⟨s, run, view⟩ := exists_run_of_execute (step programaDeErros)
    (initial (fun _ => none) true) comandosRejeitados
    (fun s => (s.pc 0, s.request 0, s.pc 1, s.request 1))
    (.returned false, .rejected (-1), .returned false, .rejected (-1)) (by decide)
  simp only [Prod.mk.injEq] at view
  obtain ⟨first, firstRequest, second, secondRequest⟩ := view
  obtain ⟨_, _, silent⟩ := failures_are_reported programaDeErros ambienteLocal _ _ run 0
  obtain ⟨atMost, _, reported⟩ := failures_are_reported programaDeErros ambienteLocal _ _ run 1
  refine ⟨_, s, run, (silent first).mpr ⟨_, -1, rfl, firstRequest⟩, ?_⟩
  apply le_antisymm atMost
  apply List.length_pos_iff.mpr
  intro nothing
  obtain ⟨args, ret, op, _⟩ := (reported second).mp nothing
  simp [programaDeErros] at op

end PahoClient
