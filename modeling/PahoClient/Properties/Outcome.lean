import PahoClient.Client.Effects

/-!
# Blocking calls return the outcome of their own command

The library finishes the command of a call with one completion.  The completion
recorded for the command is the one the library produced, and the value that the
call brings out of `esperar` is computed from it, however often the connect and
disconnect contexts have been used before.
-/

namespace PahoClient

open PahoClient.Transition

section Runs

variable {program : Program} {s t : State} {label : Label}

/-- A step records a completion exactly when the library finishes the command. -/
theorem completion_step (inv : Inv program s) (executed : step program s label = some t)
    (c : CallId) (res : Completion) :
    (t.request c).completion = some res ↔
      (s.request c).completion = some res ∨ label = .complete c res := by
  rcases request_cases executed c with same | ⟨ret, labelEq, pc, issued⟩ |
    ⟨res', labelEq, pending, _, ready⟩ | ⟨res', labelEq, ready, running⟩ |
    ⟨res', pc, labelEq, running, next⟩
  · rw [same]
    constructor
    · exact Or.inl
    · rintro (before | finished)
      · exact before
      · subst label
        cases step_effect executed with
        | complete pending answered => simp [State.setRequest, pending] at same
  · subst label
    rw [issued, inv.unissued_of_command pc]
    split <;> simp [Request.completion]
  · subst label
    rw [pending, ready]
    simp [Request.completion, eq_comm]
  · subst label
    rw [ready, running]
    simp [Request.completion]
  · subst label
    rw [running, next, completion_handlerNext]
    simp [Request.completion]

variable {callbackMap : CallbackMap} {conectado : Bool} {history : List (Event State Label)}

/-- The recorded completion of a command is the one that the library produced. -/
theorem completion_iff_mem
    (run : Run (step program) (initial callbackMap conectado) history s) (c : CallId)
    (res : Completion) :
    (s.request c).completion = some res ↔
      ∃ event ∈ history, event.label = .complete c res := by
  induction run with
  | refl => simp [initial, Request.completion]
  | @tail history source target label run executed ih =>
      rw [completion_step (Inv.of_run run) executed, ih]
      simp only [List.exists_mem_cons_iff]
      exact or_comm

/-- The library keeps its promise about the data of every completion. -/
theorem answers_of_completion
    (run : Run (step program) (initial callbackMap conectado) history s) {c : CallId}
    {res : Completion} (completed : (s.request c).completion = some res) :
    (program.op c).answers res = true := by
  obtain ⟨event, member, labelEq⟩ := (completion_iff_mem run c res).mp completed
  obtain ⟨_, executed⟩ := (inv_initial program callbackMap conectado).at_event run member
  rw [labelEq] at executed
  simp only [step] at executed
  split at executed
  · rename_i enabled
    exact enabled.2
  · cases executed

/-- A call that has been in its `esperar` frame had its command accepted. -/
theorem accepted_of_waited
    (run : Run (step program) (initial callbackMap conectado) history s) {c : CallId}
    (waited : ∃ event ∈ history, event.source.pc c = .waitLock) :
    (s.request c).accepted = true := by
  obtain ⟨event, member, pc⟩ := waited
  obtain ⟨later, earlier, rfl⟩ := List.append_of_mem member
  obtain ⟨before, executed, after⟩ := run.split
  have inv := Inv.of_run before
  have accepted : (event.source.request c).accepted = true := by
    have progress := inv.progress c
    rw [pc] at progress
    exact progress
  have whole : Run (step program) event.source (later ++ [event]) s :=
    (Run.refl.tail executed).trans after
  exact accepted_of_run whole inv accepted

/-- A call that returns after its command was accepted returns the outcome of
the completion that the library produced for it. -/
theorem Inv.outcome_of_returned (inv : Inv program s) {c : CallId} {value : Bool}
    (returned : s.pc c = .returned value) (accepted : (s.request c).accepted = true) :
    ∃ res, s.request c = .done res ∧ value = (program.op c).outcome res := by
  have progress := inv.progress c
  rw [returned] at progress
  rcases progress with unissued | ⟨ret, rejected, _⟩ | done
  · rw [unissued] at accepted
    cases accepted
  · rw [rejected] at accepted
    cases accepted
  · exact done

end Runs

/-! ## The outcome of a subscription -/

/-- No topic is refused or downgraded exactly when the loop of `sucesso` runs to
its end. -/
theorem recusado_eq_false_iff (args : Subscribe.Args) (data : SuccessData)
    (answered : (Subscribe.qosDevolvidos args data).length = args.topicos.length) :
    Subscribe.recusado args data = false ↔
      ∀ i < args.topicos.length, ∃ devolvido requisitado,
        (Subscribe.qosDevolvidos args data)[i]? = some devolvido ∧
          (Subscribe.qosRequisitados args)[i]? = some requisitado ∧
          devolvido ≠ MQTT_BAD_SUBSCRIBE ∧ ¬ devolvido < requisitado := by
  simp only [Subscribe.recusado, List.any_eq_false, List.mem_iff_getElem?,
    List.getElem?_zip_eq_some, Prod.forall]
  constructor
  · intro granted i bound
    have devolvidoAt := List.getElem?_eq_getElem (answered ▸ bound)
    have requisitadoAt := List.getElem?_eq_getElem
      ((Subscribe.qosRequisitados_length args).symm ▸ bound)
    have aceito := granted _ _ ⟨i, devolvidoAt, requisitadoAt⟩
    simp only [Subscribe.codigoRecusado, Bool.or_eq_true, beq_iff_eq, decide_eq_true_eq,
      not_or] at aceito
    exact ⟨_, _, devolvidoAt, requisitadoAt, aceito⟩
  · rintro granted devolvido requisitado ⟨i, devolvidoAt, requisitadoAt⟩
    have bound : i < args.topicos.length := by
      rw [← answered]
      exact (List.getElem?_eq_some_iff.mp devolvidoAt).1
    obtain ⟨devolvido', requisitado', first, second, aceito⟩ := granted i bound
    rw [devolvidoAt] at first
    rw [requisitadoAt] at second
    cases first
    cases second
    simpa [Subscribe.codigoRecusado] using aceito

theorem subscribe_outcome_iff (args : Subscribe.Args) (res : Completion)
    (answered : (Operation.subscribe args).answers res = true) :
    (Operation.subscribe args).outcome res = true ↔
      ∃ data, res = .onSuccess data ∧
        ∀ i < args.topicos.length, ∃ devolvido requisitado,
          (Subscribe.qosDevolvidos args data)[i]? = some devolvido ∧
            (Subscribe.qosRequisitados args)[i]? = some requisitado ∧
            devolvido ≠ MQTT_BAD_SUBSCRIBE ∧ ¬ devolvido < requisitado := by
  cases res with
  | onFailure data => simp [Operation.outcome]
  | onSuccess data =>
      have lengths : (Subscribe.qosDevolvidos args data).length = args.topicos.length := by
        simpa [Operation.answers] using answered
      simp only [Operation.outcome, Bool.not_eq_true', recusado_eq_false_iff args data lengths,
        Completion.onSuccess.injEq, exists_eq_left']

/-! ## Result integrity -/

/-- A call that reaches `esperar` returns the outcome of the one completion that
the library produced for its own command.  For a subscription the outcome is
`true` exactly when every topic was granted at its requested quality, read from
`alt.qos` for one topic and from `alt.qosList` for several.  A shared context is
never used for a new command while its flag is set. -/
theorem blocking_call_returns_own_outcome (program : Program) (callbackMap : CallbackMap)
    (conectado : Bool) (history : List (Event State Label)) (s : State)
    (run : Run (step program) (initial callbackMap conectado) history s) :
    (∀ c value, s.pc c = .returned value →
      (∃ event ∈ history, event.source.pc c = .waitLock) →
      ∃ res, value = (program.op c).outcome res ∧
        (∃ event ∈ history, event.label = .complete c res) ∧
        ∀ event ∈ history, ∀ other, event.label = .complete c other → other = res) ∧
    (∀ c args value, program.op c = .subscribe args → s.pc c = .returned value →
      (∃ event ∈ history, event.source.pc c = .waitLock) →
      ∃ res, (∃ event ∈ history, event.label = .complete c res) ∧
        (value = true ↔ ∃ data, res = .onSuccess data ∧
          ∀ i < args.topicos.length, ∃ devolvido requisitado,
            (if args.topicos.length = 1 then [data.qos] else data.qosList)[i]? =
                some devolvido ∧
              (Subscribe.qosRequisitados args)[i]? = some requisitado ∧
              devolvido ≠ 0x80 ∧ ¬ devolvido < requisitado)) ∧
    ∀ event ∈ history, ∀ c ret, event.label = .call c ret → event.source.pc c = .command →
      (program.op c).usesConexao = true →
      (event.source.contexto (contextOf (program.op c) c)).finalizada = false := by
  have inv := Inv.of_run run
  refine ⟨?_, ?_, ?_⟩
  · intro c value returned waited
    obtain ⟨res, done, valueEq⟩ := inv.outcome_of_returned returned (accepted_of_waited run waited)
    have completed : (s.request c).completion = some res := by
      rw [done]
      rfl
    refine ⟨res, valueEq, (completion_iff_mem run c res).mp completed, ?_⟩
    intro event member other labelEq
    have recorded := (completion_iff_mem run c other).mpr ⟨event, member, labelEq⟩
    exact Option.some.inj (recorded.symm.trans completed)
  · intro c args value op returned waited
    obtain ⟨res, done, valueEq⟩ := inv.outcome_of_returned returned (accepted_of_waited run waited)
    have completed : (s.request c).completion = some res := by
      rw [done]
      rfl
    have answered := answers_of_completion run completed
    rw [op] at answered valueEq
    refine ⟨res, (completion_iff_mem run c res).mp completed, ?_⟩
    rw [valueEq, subscribe_outcome_iff args res answered]
    simp only [Subscribe.qosDevolvidos, Subscribe.qosRequisitados_length, MQTT_BAD_SUBSCRIBE]
  · intro event member c ret labelEq pc uses
    obtain ⟨source, executed⟩ := (inv_initial program callbackMap conectado).at_event run member
    have ownsContexto : owns (program.op c) (event.source.pc c) = true := by
      rw [pc]
      cases op : program.op c <;> rfl
    rw [(source.agrees c ownsContexto).flag, source.unissued_of_command pc]
    rfl

/-- Every call subscribes to the same two topics. -/
def programaDeDois : Program where
  op _ := .subscribe doisTopicos
  topico _ := []

/-- A granted subscription whose handler finishes before the caller reaches
`esperar`. -/
def inscricaoAceita : List Label :=
  [.start 0, .call 0 0, .call 0 0, .call 0 0, .call 0 0, .call 0 0,
    .complete 0 (.onSuccess ⟨0, [1, 2], 0⟩), .deliver 0, .handler 0, .handler 0, .handler 0,
    .handler 0, .handler 0, .handler 0, .call 0 0, .call 0 0, .call 0 0]

theorem blocking_call_returns_own_outcome_granted :
    ∃ history s, Run (step programaDeDois) (initial (fun _ => none) true) history s ∧
      s.pc 0 = .returned true ∧
      ∃ res, true = (programaDeDois.op 0).outcome res ∧
        ∃ event ∈ history, event.label = .complete 0 res := by
  obtain ⟨s, run, returned⟩ := exists_run_of_execute (step programaDeDois)
    (initial (fun _ => none) true) inscricaoAceita
    (fun s => s.pc 0) (.returned true) (by decide)
  obtain ⟨event, member, waiting⟩ := exists_mem_eventsOf (step programaDeDois)
    (initial (fun _ => none) true) inscricaoAceita
    (fun event => event.source.pc 0 == .waitLock) (by decide)
  obtain ⟨res, valueEq, completed, _⟩ :=
    (blocking_call_returns_own_outcome _ _ _ _ _ run).1 0 true returned
      ⟨event, member, by simpa using waiting⟩
  exact ⟨_, s, run, returned, res, valueEq, completed⟩

end PahoClient
