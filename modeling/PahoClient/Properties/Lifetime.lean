import PahoClient.Properties.Outcome

/-!
# Handlers never outlive the context they report through

The context of a subscribe or unsubscribe call is destroyed when the call
returns.  The handler of its command is shown to execute one fixed path that
ends with the single call of `notificar_um`, and the call to be still inside
`despachar` while any part of the path remains.
-/

namespace PahoClient

open PahoClient.Transition

/-! ## The path of a handler -/

/-- The statements of `notificar_um`. -/
def notificarUm : List HandlerPc :=
  [.lock, .mark, .notify, .unlock]

/-- The statements of a handler from a given one to its end, for the positions
after the first test. -/
def HandlerPc.rest : HandlerPc → List HandlerPc
  | start => []
  | acquire => acquire :: loop :: release :: store false :: notificarUm
  | loop => loop :: release :: store false :: notificarUm
  | release => release :: store false :: notificarUm
  | store value => store value :: notificarUm
  | lock => notificarUm
  | mark => [mark, notify, unlock]
  | notify => [notify, unlock]
  | unlock => [unlock]

/-- All statements of the handler that reports `res`. -/
def handlerPath (op : Operation) (res : Completion) : List HandlerPc :=
  .start :: (handlerOf op res).rest

/-- The statements that a command still has to run through in its handler. -/
def Request.rest (op : Operation) : Request → List HandlerPc
  | running res .start => handlerPath op res
  | running _ pc => pc.rest
  | _ => []

/-- The statements that the handler of the command of `c` has executed, oldest
first. -/
def handlerTrace (c : CallId) : List (Event State Label) → List HandlerPc
  | [] => []
  | event :: earlier =>
      match event.label, event.source.request c with
      | .handler d, .running _ pc =>
          if d = c then handlerTrace c earlier ++ [pc] else handlerTrace c earlier
      | _, _ => handlerTrace c earlier

/-- Every path starts with statements outside `notificar_um` and ends with the
whole of it. -/
theorem handlerPath_eq_append (op : Operation) (res : Completion) :
    ∃ before, handlerPath op res = before ++ notificarUm ∧ ∀ pc ∈ before, pc ∉ notificarUm := by
  rcases handlerOf_cases op res with ⟨first, _⟩ | first
  · rw [handlerPath, first]
    exact ⟨[.start, .acquire, .loop, .release, .store false], rfl, by decide⟩
  · rw [handlerPath, first]
    refine ⟨[.start, .store (op.outcome res)], rfl, ?_⟩
    cases op.outcome res <;> decide

/-- One statement of a handler shortens what remains by exactly itself. -/
theorem rest_handlerNext (op : Operation) (res : Completion) (pc : HandlerPc) :
    Request.rest op (.running res pc) = pc :: (handlerNext op res pc).rest op := by
  cases pc with
  | start =>
      rcases handlerOf_cases op res with ⟨first, _⟩ | first <;>
        simp only [Request.rest, handlerPath, handlerNext, first]
  | _ => rfl

section Runs

variable {program : Program} {s t : State} {callbackMap : CallbackMap} {conectado : Bool}
  {history : List (Event State Label)} {label : Label} {c : CallId}

/-- The executed part of a handler followed by what remains of it is its path;
before the handler starts nothing has been executed. -/
structure Traced (op : Operation) (c : CallId) (history : List (Event State Label))
    (request : Request) : Prop where
  whileRunning : ∀ res pc, request = .running res pc →
    handlerTrace c history ++ request.rest op = handlerPath op res
  whenDone : ∀ res, request = .done res → handlerTrace c history = handlerPath op res
  before : (∀ res pc, request ≠ .running res pc) → (∀ res, request ≠ .done res) →
    handlerTrace c history = []

/-- Only a statement of the handler itself extends its trace. -/
theorem handlerTrace_cons_of_other
    (other : ∀ res pc, label = .handler c → s.request c ≠ .running res pc) :
    handlerTrace c (⟨s, label, t⟩ :: history) = handlerTrace c history := by
  simp only [handlerTrace]
  split
  · rename_i d res pc running
    split
    · rename_i own
      rw [own] at other
      exact absurd running (other res pc rfl)
    · rfl
  · rfl

theorem Traced.nothing_step {op : Operation} (traced : Traced op c history (s.request c))
    (notRunning : ∀ res pc, s.request c ≠ .running res pc)
    (notDone : ∀ res, s.request c ≠ .done res) :
    handlerTrace c (⟨s, label, t⟩ :: history) = [] := by
  rw [handlerTrace_cons_of_other fun res pc _ => notRunning res pc]
  exact traced.before notRunning notDone

/-- A handler that has executed nothing is at its start. -/
theorem traced_of_nothing {op : Operation} {request : Request}
    (nothing : handlerTrace c history = [])
    (starts : ∀ res pc, request = .running res pc → pc = .start)
    (notDone : ∀ res, request ≠ .done res) : Traced op c history request where
  whileRunning res pc running := by
    subst running
    cases starts res pc rfl
    rw [nothing]
    rfl
  whenDone res done := absurd done (notDone res)
  before _ _ := nothing

/-- A statement of the handler moves its command. -/
theorem not_running_of_same (executed : step program s (.handler c) = some t)
    (same : t.request c = s.request c) (res : Completion) (pc : HandlerPc) :
    s.request c ≠ .running res pc := by
  intro running
  simp only [step, running] at executed
  have request := congrFun (handle_effect executed).request c
  rw [same, running, Function.update_self] at request
  have shorter := congrArg (fun command => (command.rest (program.op c)).length) request
  simp [rest_handlerNext] at shorter

/-- A statement of the handler goes from the remaining path to the executed
one. -/
theorem Traced.advance {op : Operation} {res : Completion} {pc : HandlerPc}
    {history' : List (Event State Label)} (traced : Traced op c history (.running res pc))
    (extended : handlerTrace c history' = handlerTrace c history ++ [pc]) :
    Traced op c history' (handlerNext op res pc) := by
  have path := traced.whileRunning res pc rfl
  rw [rest_handlerNext] at path
  have whole : handlerTrace c history' ++ (handlerNext op res pc).rest op = handlerPath op res := by
    rw [extended, List.append_assoc]
    exact path
  have sameRes := completion_handlerNext op res pc
  constructor
  · intro res' pc' next
    rw [next] at sameRes
    cases sameRes
    exact whole
  · intro res' next
    rw [next] at sameRes whole
    cases sameRes
    simpa [Request.rest] using whole
  · intro notRunning notDone
    cases pc <;> simp [handlerNext] at notRunning notDone

theorem Traced.step (traced : Traced (program.op c) c history (s.request c))
    (inv : Inv program s) (executed : step program s label = some t) :
    Traced (program.op c) c (⟨s, label, t⟩ :: history) (t.request c) := by
  rcases request_cases executed c with same | ⟨ret, rfl, pc, issued⟩ |
    ⟨res, rfl, pending, _, ready⟩ | ⟨res, rfl, ready, running⟩ | ⟨res, pc, rfl, running, next⟩
  · have unchanged : handlerTrace c (⟨s, label, t⟩ :: history) = handlerTrace c history := by
      apply handlerTrace_cons_of_other
      rintro res pc rfl
      exact not_running_of_same executed same res pc
    rw [same]
    constructor
    · rw [unchanged]
      exact traced.whileRunning
    · rw [unchanged]
      exact traced.whenDone
    · rw [unchanged]
      exact traced.before
  · have unissued := inv.unissued_of_command pc
    rw [issued]
    apply traced_of_nothing (traced.nothing_step (by simp [unissued]) (by simp [unissued]))
    · intro res pc
      split <;> simp
    · intro res
      split <;> simp
  · rw [ready]
    exact traced_of_nothing (traced.nothing_step (by simp [pending]) (by simp [pending]))
      (by simp) (by simp)
  · rw [running]
    exact traced_of_nothing (traced.nothing_step (by simp [ready]) (by simp [ready]))
      (by simp) (by simp)
  · rw [next]
    rw [running] at traced
    exact traced.advance (by simp [handlerTrace, running])

theorem traced_of_run (run : Run (step program) (initial callbackMap conectado) history s)
    (c : CallId) : Traced (program.op c) c history (s.request c) := by
  induction run with
  | refl =>
      constructor
      · intro res pc running
        cases running
      · intro res done
        cases done
      · exact fun _ _ => rfl
  | tail earlier executed ih => exact ih.step (Inv.of_run earlier) executed

end Runs

/-! ## No handler step on a finished request -/

/-- While the library has not finished with the command of a call, the call has
not returned, so its context, its topics and its requested qualities are alive;
and a finished handler has executed `notificar_um` once, after everything else
it did. -/
theorem handler_within_lifetime (program : Program) (callbackMap : CallbackMap)
    (conectado : Bool) (history : List (Event State Label)) (s : State)
    (run : Run (step program) (initial callbackMap conectado) history s) (c : CallId) :
    ((s.request c).outstanding = true → ∀ value, s.pc c ≠ .returned value) ∧
      (∀ res pc, s.request c = .running res pc →
        ∃ before, handlerTrace c history ++ (s.request c).rest (program.op c) =
          before ++ notificarUm ∧ ∀ pc ∈ before, pc ∉ notificarUm) ∧
      ∀ res, s.request c = .done res →
        ∃ before, handlerTrace c history = before ++ notificarUm ∧
          ∀ pc ∈ before, pc ∉ notificarUm := by
  have traced := traced_of_run run c
  refine ⟨?_, ?_, ?_⟩
  · intro outstanding value returned
    have progress := (Inv.of_run run).progress c
    rw [returned] at progress
    rcases progress with finished | ⟨_, finished, _⟩ | ⟨_, finished, _⟩ <;>
      simp [finished, Request.outstanding] at outstanding
  · intro res pc running
    rw [traced.whileRunning res pc running]
    exact handlerPath_eq_append _ _
  · intro res done
    rw [traced.whenDone res done]
    exact handlerPath_eq_append _ _

/-- A subscription whose first topic is refused, up to the end of its
handler. -/
def inscricaoRecusada : List Label :=
  [.start 0, .call 0 0, .call 0 0, .call 0 0, .call 0 0, .call 0 0,
    .complete 0 (.onSuccess ⟨0, [0x80, 1], 0⟩), .deliver 0, .handler 0, .handler 0,
    .handler 0, .handler 0, .handler 0, .handler 0, .handler 0, .handler 0, .handler 0]

theorem handler_within_lifetime_refused :
    ∃ history s, Run (step programaDeDois) (initial (fun _ => none) true) history s ∧
      s.request 0 = .done (.onSuccess ⟨0, [0x80, 1], 0⟩) ∧
      ∃ before, handlerTrace 0 history = before ++ notificarUm ∧
        ∀ pc ∈ before, pc ∉ notificarUm := by
  obtain ⟨s, run, done⟩ := exists_run_of_execute (step programaDeDois)
    (initial (fun _ => none) true) inscricaoRecusada
    (fun s => s.request 0) (.done (.onSuccess ⟨0, [0x80, 1], 0⟩)) (by decide)
  exact ⟨_, s, run, done, (handler_within_lifetime _ _ _ _ _ run 0).2.2 _ done⟩

end PahoClient
