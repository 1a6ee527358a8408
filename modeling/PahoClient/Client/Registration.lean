import PahoClient.Client.Effects
import PahoClient.Store.Log

/-!
# The registrations behind the callback table

Every loop over `_callback_map` is one bulk update of the table.  The history
of a run therefore yields a log whose replay is the table, and the part of the
log that one call has written is determined by the positions of the call and of
its command.
-/

namespace PahoClient

open PahoClient.Transition
open PahoClient.Store

/-! ## The log of a run -/

/-- The update performed by a loop of an operation. -/
def edit : Operation → Laco → Edit StdString Callback
  | .subscribe args, .inserir => .insert (args.topicos.zip args.callbacks)
  | .subscribe args, .desfazer => .erase args.topicos
  | .unsubscribe topicos, .apagar => .erase topicos
  | _, _ => .erase []

/-- The handler of a subscribe call is about to run its erasure loop. -/
def rollsBack : Operation → HandlerPc → Bool
  | .subscribe _, .loop => true
  | _, _ => false

/-- The loop that an event executes and the call on whose behalf it runs. -/
def lacoOf (program : Program) (event : Event State Label) : Option (CallId × Laco) :=
  match event.label with
  | .call c _ =>
      match event.source.pc c with
      | .loop laco => some (c, laco)
      | _ => none
  | .handler c =>
      match event.source.request c with
      | .running _ pc => if rollsBack (program.op c) pc then some (c, .desfazer) else none
      | _ => none
  | _ => none

/-- The loops executed in a history, newest first. -/
def lacos (program : Program) (history : List (Event State Label)) : List (CallId × Laco) :=
  history.filterMap (lacoOf program)

/-- The updates made in a history, newest first. -/
def updates (program : Program) (history : List (Event State Label)) :
    Log CallId StdString Callback :=
  (lacos program history).map fun entry => (entry.1, edit (program.op entry.1) entry.2)

/-- The loops that one call has executed, newest first. -/
def lacosBy (program : Program) (c : CallId) (history : List (Event State Label)) : List Laco :=
  ((lacos program history).filter fun entry => entry.1 = c).map Prod.snd

/-- A loop of the call `d` erases the topic. -/
def Removes (program : Program) (d : CallId) (topico : StdString) (event : Event State Label) :
    Prop :=
  (lacoOf program event = some (d, .desfazer) ∨ lacoOf program event = some (d, .apagar)) ∧
    topico ∈ (program.op d).topicos

theorem callLoop_eq_apply (op : Operation) (laco : Laco) (map : CallbackMap) :
    callLoop op laco map = (edit op laco).apply map := by
  cases op with
  | subscribe args =>
      cases laco with
      | inserir => rfl
      | desfazer => exact Subscribe.desfazer_eq_eraseAll args map
      | apagar => rfl
  | conectar | unsubscribe | desconectar => cases laco <;> rfl

/-- A loop names topics of its own call only. -/
theorem mem_topicos_of_mem_keys {op : Operation} {laco : Laco} {topico : StdString}
    (named : topico ∈ (edit op laco).keys) : topico ∈ op.topicos := by
  cases op with
  | subscribe args =>
      cases laco with
      | inserir =>
          obtain ⟨entry, member, rfl⟩ := List.mem_map.mp named
          exact (List.of_mem_zip member).1
      | desfazer => exact named
      | apagar => cases named
  | unsubscribe topicos =>
      cases laco with
      | apagar => exact named
      | inserir | desfazer => cases named
  | conectar | desconectar => cases laco <;> cases named

theorem keys_inserir (args : Subscribe.Args) :
    (edit (.subscribe args) .inserir).keys = args.topicos :=
  List.map_fst_zip args.covered

/-- A statement of a handler changes the table by its rollback only. -/
theorem handlerLoop_eq_apply (op : Operation) (pc : HandlerPc) (map : CallbackMap) :
    (if pc = .loop then handlerLoop op map else map) =
      if rollsBack op pc then (edit op .desfazer).apply map else map := by
  cases op with
  | subscribe args =>
      cases pc with
      | loop => exact Subscribe.desfazer_eq_eraseAll args map
      | _ => rfl
  | conectar | unsubscribe | desconectar => cases pc <;> rfl

section Log

variable {program : Program} {s t start : State} {label : Label}
  {history : List (Event State Label)}

theorem lacos_handler {c : CallId} {res : Completion} {pc : HandlerPc}
    (running : s.request c = .running res pc) :
    lacos program [⟨s, .handler c, t⟩] =
      if rollsBack (program.op c) pc then [(c, .desfazer)] else [] := by
  cases rolls : rollsBack (program.op c) pc <;> simp [lacos, lacoOf, running, rolls]

/-- One step makes the update of its loop, or none. -/
theorem callbackMap_step (executed : step program s label = some t) :
    t.callbackMap = Log.replay s.callbackMap (updates program [⟨s, label, t⟩]) := by
  cases step_effect executed with
  | start | wake | complete | deliver | arrive | network => rfl
  | @call c _ _ _ effect =>
      cases pc : s.pc c with
      | loop laco =>
          rw [effect.loop laco pc, callLoop_eq_apply]
          simp [updates, lacos, lacoOf, pc]
      | _ =>
          rw [effect.outside (by simp [pc])]
          simp [updates, lacos, lacoOf, pc]
  | handler running effect =>
      rw [effect.table, handlerLoop_eq_apply, updates, lacos_handler running]
      split <;> rfl
  | message messageStep => exact (mensagemRecebida_frame messageStep).callbackMap

theorem updates_append (later earlier : List (Event State Label)) :
    updates program (later ++ earlier) = updates program later ++ updates program earlier := by
  simp [updates, lacos]

/-- The table is the replay of the log. -/
theorem callbackMap_of_run (run : Run (step program) start history s) :
    s.callbackMap = Log.replay start.callbackMap (updates program history) := by
  induction run with
  | refl => rfl
  | @tail history source target label _ executed ih =>
      have newest : updates program (⟨source, label, target⟩ :: history) =
          updates program [⟨source, label, target⟩] ++ updates program history :=
        updates_append [⟨source, label, target⟩] history
      rw [newest, Log.replay_append, ← ih]
      exact callbackMap_step executed

end Log

/-! ## The part of one call -/

/-- The handler has run its erasure loop. -/
def HandlerPc.pastLoop : HandlerPc → Bool
  | release | store _ | lock | mark | notify | unlock => true
  | start | acquire | loop => false

/-- The handler of a subscribe call has rolled the registration back. -/
def Request.desfeito (op : Operation) : Request → Bool
  | running res pc => pc.pastLoop && !op.outcome res
  | done res => !op.outcome res
  | _ => false

/-- The loops that a call has executed at given positions of its thread and its
command, newest first. -/
def lacosAt (op : Operation) (pc : Pc) (request : Request) : List Laco :=
  match op, pc with
  | .subscribe _, .idle | .subscribe _, .testVazio | .subscribe _, .acquire .inserir
  | .subscribe _, .loop .inserir => []
  | .subscribe _, .release .desfazer => [.desfazer, .inserir]
  | .subscribe _, .returned _ =>
      match request with
      | .unissued => []
      | .rejected _ => [.desfazer, .inserir]
      | _ => if request.desfeito op then [.desfazer, .inserir] else [.inserir]
  | .subscribe _, _ => if request.desfeito op then [.desfazer, .inserir] else [.inserir]
  | .unsubscribe _, .idle | .unsubscribe _, .command | .unsubscribe _, .acquire _
  | .unsubscribe _, .loop _ => []
  | .unsubscribe _, .returned _ => if request.accepted then [.apagar] else []
  | .unsubscribe _, _ => [.apagar]
  | .conectar, _ | .desconectar, _ => []

section Calls

variable {program : Program} {s t start : State} {label : Label}
  {history : List (Event State Label)}

/-- A loop runs in a statement of its call or of the handler of its command. -/
theorem label_of_lacoOf {event : Event State Label} {c : CallId} {laco : Laco}
    (loops : lacoOf program event = some (c, laco)) :
    (∃ ret, event.label = .call c ret ∧ event.source.pc c = .loop laco) ∨
      event.label = .handler c ∧ laco = .desfazer ∧
        ∃ res args, event.source.request c = .running res .loop ∧
          program.op c = .subscribe args := by
  unfold lacoOf at loops
  split at loops
  · rename_i d ret labelEq
    split at loops
    · rename_i found pc
      cases loops
      exact Or.inl ⟨ret, labelEq, pc⟩
    · cases loops
  · rename_i d labelEq
    split at loops
    · rename_i res pc running
      cases op : program.op d with
      | subscribe args =>
          rw [op] at loops
          cases pc with
          | loop =>
              cases loops
              exact Or.inr ⟨labelEq, rfl, res, args, running, op⟩
          | _ => cases loops
      | conectar | unsubscribe | desconectar =>
          rw [op] at loops
          cases loops
    · cases loops
  · cases loops

/-- A subscribe call inserts and rolls back, and an unsubscribe call erases. -/
theorem op_of_loop {c : CallId} {ret : Int} {laco : Laco}
    (executed : step program s (.call c ret) = some t) (pc : s.pc c = .loop laco) :
    (∃ args, program.op c = .subscribe args ∧ laco ≠ .apagar) ∨
      ∃ topicos, program.op c = .unsubscribe topicos ∧ laco = .apagar := by
  simp only [step] at executed
  cases op : program.op c with
  | conectar => simp [op, despachar, Connect.despachar, Contexto.esperar, pc] at executed
  | desconectar => simp [op, despachar, Disconnect.despachar, Contexto.esperar, pc] at executed
  | subscribe args =>
      refine Or.inl ⟨args, rfl, ?_⟩
      rintro rfl
      simp [op, despachar, Subscribe.despachar, Contexto.esperar, pc] at executed
  | unsubscribe topicos =>
      cases laco with
      | apagar => exact Or.inr ⟨topicos, rfl, rfl⟩
      | inserir | desfazer =>
          simp [op, despachar, Unsubscribe.despachar, Contexto.esperar, pc] at executed

/-- A step on behalf of nobody or of another call runs no loop of a call. -/
theorem lacosBy_of_other {c : CallId} (notCall : ∀ ret, label ≠ .call c ret)
    (notHandler : label ≠ .handler c) : lacosBy program c [⟨s, label, t⟩] = [] := by
  cases loops : lacoOf program ⟨s, label, t⟩ with
  | none => simp [lacosBy, lacos, loops]
  | some entry =>
      obtain ⟨d, laco⟩ := entry
      have other : d ≠ c := by
        rintro rfl
        rcases label_of_lacoOf loops with ⟨ret, labelEq, _⟩ | ⟨labelEq, _⟩
        · exact notCall ret labelEq
        · exact notHandler labelEq
      simp [lacosBy, lacos, loops, other]

theorem lacosBy_call {c : CallId} {ret : Int} :
    lacosBy program c [⟨s, .call c ret, t⟩] =
      match s.pc c with
      | .loop laco => [laco]
      | _ => [] := by
  cases pc : s.pc c <;> simp [lacosBy, lacos, lacoOf, pc]

theorem lacosAt_subscribe (inv : Inv program s) {c : CallId} {ret : Int} {args : Subscribe.Args}
    (op : program.op c = .subscribe args)
    (executed : step program s (.call c ret) = some t) :
    lacosAt (.subscribe args) (t.pc c) (t.request c) =
      lacosBy program c [⟨s, .call c ret, t⟩] ++
        lacosAt (.subscribe args) (s.pc c) (s.request c) := by
  have next := pc_of_call executed
  have progress := inv.progress c
  have request := request_of_call executed
  have enabled : Subscribe.despachar args c ret s = some t := by
    simpa only [step, op, despachar] using executed
  rw [op] at next progress
  rw [next, request, lacosBy_call]
  cases pc : s.pc c with
  | testVazio =>
      rw [pc] at progress
      simp only [callNext, pc]
      split <;> simp_all [lacosAt, PahoClient.progress]
  | acquire laco =>
      rw [pc] at progress
      cases laco with
      | inserir => simp_all [callNext, lacosAt, PahoClient.progress]
      | desfazer =>
          obtain ⟨code, rejected⟩ := progress
          simp_all [callNext, lacosAt]
      | apagar => simp [Subscribe.despachar, Contexto.esperar, pc] at enabled
  | loop laco =>
      rw [pc] at progress
      cases laco with
      | inserir => simp_all [callNext, lacosAt, PahoClient.progress, Request.desfeito]
      | desfazer =>
          obtain ⟨code, rejected⟩ := progress
          simp_all [callNext, lacosAt, Request.desfeito]
      | apagar => simp [Subscribe.despachar, Contexto.esperar, pc] at enabled
  | release laco =>
      rw [pc] at progress
      cases laco with
      | inserir => simp_all [callNext, lacosAt, PahoClient.progress]
      | desfazer =>
          obtain ⟨code, rejected⟩ := progress
          simp_all [callNext, lacosAt]
      | apagar => simp [Subscribe.despachar, Contexto.esperar, pc] at enabled
  | command =>
      rw [pc] at progress
      simp only [callNext, pc]
      split <;> simp_all [lacosAt, PahoClient.progress, Request.desfeito]
  | waitTest =>
      simp only [callNext, pc, waitNext]
      split <;> simp_all [lacosAt]
  | waitUnlock value =>
      rw [pc] at progress
      obtain ⟨res, done, _⟩ := progress
      simp_all [callNext, lacosAt, waitNext]
  | waitLock | waiting => simp_all [callNext, lacosAt, waitNext]
  | idle | lockConexao | testConectado | setCallbacks | unlockConexao | returned =>
      simp [Subscribe.despachar, Contexto.esperar, pc] at enabled

theorem lacosAt_unsubscribe (inv : Inv program s) {c : CallId} {ret : Int}
    {topicos : List StdString} (op : program.op c = .unsubscribe topicos)
    (executed : step program s (.call c ret) = some t) :
    lacosAt (.unsubscribe topicos) (t.pc c) (t.request c) =
      lacosBy program c [⟨s, .call c ret, t⟩] ++
        lacosAt (.unsubscribe topicos) (s.pc c) (s.request c) := by
  have next := pc_of_call executed
  have progress := inv.progress c
  have request := request_of_call executed
  have enabled : Unsubscribe.despachar topicos c ret s = some t := by
    simpa only [step, op, despachar] using executed
  rw [op] at next progress
  rw [next, request, lacosBy_call]
  cases pc : s.pc c with
  | command =>
      simp only [callNext, pc]
      split <;> simp_all [lacosAt, Request.accepted]
  | acquire laco =>
      cases laco with
      | apagar => simp_all [callNext, lacosAt]
      | inserir | desfazer => simp [Unsubscribe.despachar, Contexto.esperar, pc] at enabled
  | loop laco =>
      cases laco with
      | apagar => simp_all [callNext, lacosAt]
      | inserir | desfazer => simp [Unsubscribe.despachar, Contexto.esperar, pc] at enabled
  | release laco =>
      cases laco with
      | apagar => simp_all [callNext, lacosAt]
      | inserir | desfazer => simp [Unsubscribe.despachar, Contexto.esperar, pc] at enabled
  | waitTest =>
      simp only [callNext, pc, waitNext]
      split <;> simp_all [lacosAt]
  | waitUnlock value =>
      rw [pc] at progress
      obtain ⟨res, done, _⟩ := progress
      simp_all [callNext, lacosAt, waitNext, Request.accepted]
  | waitLock | waiting => simp_all [callNext, lacosAt, waitNext]
  | idle | testVazio | lockConexao | testConectado | setCallbacks | unlockConexao | returned =>
      simp [Unsubscribe.despachar, Contexto.esperar, pc] at enabled

/-- A connect or disconnect call runs no loop. -/
theorem lacosBy_of_usesConexao {c : CallId} {ret : Int}
    (uses : (program.op c).usesConexao = true)
    (executed : step program s (.call c ret) = some t) :
    lacosBy program c [⟨s, .call c ret, t⟩] = [] := by
  rw [lacosBy_call]
  split
  · rename_i laco pc
    rcases op_of_loop executed pc with ⟨args, op, _⟩ | ⟨topicos, op, _⟩ <;>
      simp [op, Operation.usesConexao] at uses
  · rfl

/-- A subscribe handler stores at once only when every topic was granted. -/
theorem handlerOf_subscribe (args : Subscribe.Args) (res : Completion) :
    handlerOf (.subscribe args) res =
      if (Operation.subscribe args).outcome res then .store true else .acquire := by
  cases res with
  | onFailure data => rfl
  | onSuccess data =>
      cases recusado : Subscribe.recusado args data <;>
        simp [handlerOf, Subscribe.sucesso, Operation.outcome, recusado]

/-- One statement of a subscribe handler rolls back in its loop only. -/
theorem desfeito_handlerNext {args : Subscribe.Args} {res : Completion} {pc : HandlerPc}
    (reported : reports (.subscribe args) (.running res pc)) :
    (handlerNext (.subscribe args) res pc).desfeito (.subscribe args) =
      (Request.desfeito (.subscribe args) (.running res pc) || decide (pc = .loop)) := by
  cases pc with
  | start =>
      cases outcome : (Operation.subscribe args).outcome res <;>
        simp [handlerNext, handlerOf_subscribe, Request.desfeito, HandlerPc.pastLoop, outcome]
  | loop =>
      have refused : (Operation.subscribe args).outcome res = false := reported
      simp [handlerNext, Request.desfeito, HandlerPc.pastLoop, refused]
  | _ => simp [handlerNext, Request.desfeito, HandlerPc.pastLoop]

/-- Once the command of a subscribe call is accepted, only its rollback is open. -/
theorem lacosAt_of_accepted {args : Subscribe.Args} {pc : Pc} {request : Request}
    (progress : progress (.subscribe args) pc request) (accepted : request.accepted = true) :
    lacosAt (.subscribe args) pc request =
      if request.desfeito (.subscribe args) then [.desfazer, .inserir] else [.inserir] := by
  cases pc with
  | idle | testVazio =>
      rw [PahoClient.progress] at progress
      subst request
      cases accepted
  | acquire laco | loop laco | release laco =>
      cases laco with
      | inserir =>
          rw [PahoClient.progress] at progress
          subst request
          cases accepted
      | desfazer =>
          obtain ⟨ret, rfl⟩ := progress
          cases accepted
      | apagar => rfl
  | returned value =>
      rcases progress with rfl | ⟨ret, rfl, _⟩ | ⟨res, rfl, _⟩
      · cases accepted
      · cases accepted
      · rfl
  | _ => rfl

/-- The loops of a call while its accepted command advances on the library's
side. -/
theorem lacosAt_library (before : Inv program s) (after : Inv program t) {c : CallId}
    (undoes : Bool) (samePc : t.pc c = s.pc c) (accepted : (s.request c).accepted = true)
    (stillAccepted : (t.request c).accepted = true)
    (desfeito : ∀ args, program.op c = .subscribe args →
      (t.request c).desfeito (.subscribe args) =
        ((s.request c).desfeito (.subscribe args) || undoes))
    (once : undoes = true → (s.request c).desfeito (program.op c) = false ∧
      ∃ args, program.op c = .subscribe args) :
    lacosAt (program.op c) (t.pc c) (t.request c) =
      (if undoes then [.desfazer] else []) ++
        lacosAt (program.op c) (s.pc c) (s.request c) := by
  have progressBefore := before.progress c
  have progressAfter := after.progress c
  cases op : program.op c with
  | subscribe args =>
      rw [op] at progressBefore progressAfter once
      rw [lacosAt_of_accepted progressBefore accepted,
        lacosAt_of_accepted progressAfter stillAccepted, desfeito args op]
      cases undoes with
      | true => simp [(once rfl).1]
      | false => simp
  | unsubscribe topicos =>
      have none : undoes = false := by
        cases undoes with
        | false => rfl
        | true => simp [op] at once
      rw [none, samePc]
      cases s.pc c <;> simp [lacosAt, accepted, stillAccepted]
  | conectar | desconectar =>
      have none : undoes = false := by
        cases undoes with
        | false => rfl
        | true => simp [op] at once
      rw [none]
      rfl

theorem lacosBy_handler {c : CallId} {res : Completion} {pc : HandlerPc}
    (running : s.request c = .running res pc) :
    lacosBy program c [⟨s, .handler c, t⟩] =
      if rollsBack (program.op c) pc then [.desfazer] else [] := by
  rw [lacosBy, lacos_handler running]
  split <;> simp

theorem lacosAt_handler (inv : Inv program s) {c : CallId}
    (executed : step program s (.handler c) = some t) :
    lacosAt (program.op c) (t.pc c) (t.request c) =
      lacosBy program c [⟨s, .handler c, t⟩] ++
        lacosAt (program.op c) (s.pc c) (s.request c) := by
  obtain ⟨res, pc, running, next, samePc⟩ := request_of_handler executed
  have reported := inv.reports c
  rw [running] at reported
  rw [lacosBy_handler running]
  apply lacosAt_library inv (inv.step executed) _ (congrFun samePc c)
  · rw [running]
    rfl
  · rw [next]
    cases pc <;> rfl
  · intro args op
    rw [op] at reported next
    rw [next, running, desfeito_handlerNext reported, op]
    cases pc <;> rfl
  · intro undoes
    cases op : program.op c with
    | subscribe args =>
        rw [op] at undoes
        rw [running]
        cases pc with
        | loop => exact ⟨rfl, args, rfl⟩
        | _ => cases undoes
    | conectar | unsubscribe | desconectar =>
        rw [op] at undoes
        cases undoes

/-- One step extends the loops of every call by the loop that it executes for
that call. -/
theorem lacosAt_step (inv : Inv program s) (executed : step program s label = some t)
    (c : CallId) :
    lacosAt (program.op c) (t.pc c) (t.request c) =
      lacosBy program c [⟨s, label, t⟩] ++ lacosAt (program.op c) (s.pc c) (s.request c) := by
  by_cases ownCall : ∃ ret, label = .call c ret
  · obtain ⟨ret, rfl⟩ := ownCall
    cases op : program.op c with
    | subscribe args => exact lacosAt_subscribe inv op executed
    | unsubscribe topicos => exact lacosAt_unsubscribe inv op executed
    | conectar | desconectar =>
        rw [lacosBy_of_usesConexao (by rw [op]; rfl) executed]
        rfl
  by_cases ownHandler : label = .handler c
  · subst label
    exact lacosAt_handler inv executed
  have notCall : ∀ ret, label ≠ .call c ret := fun ret labelEq => ownCall ⟨ret, labelEq⟩
  have after := inv.step executed
  rw [lacosBy_of_other notCall ownHandler]
  rcases pc_of_not_call executed notCall with samePc | ⟨idle, entered⟩
  · rcases request_cases executed c with same | ⟨ret, labelEq, _⟩ |
      ⟨res, _, pending, _, ready⟩ | ⟨res, _, ready, running⟩ | ⟨res, pc, labelEq, _⟩
    · rw [same, samePc]
      rfl
    · exact absurd labelEq (notCall ret)
    · exact lacosAt_library inv after false samePc (by rw [pending]; rfl)
        (by rw [ready]; rfl) (by simp [ready, pending, Request.desfeito]) (by simp)
    · exact lacosAt_library inv after false samePc (by rw [ready]; rfl)
        (by rw [running]; rfl) (by simp [ready, running, Request.desfeito, HandlerPc.pastLoop])
        (by simp)
    · exact absurd labelEq ownHandler
  · rw [entered, idle]
    cases program.op c <;> rfl

theorem lacosBy_append (c : CallId) (later earlier : List (Event State Label)) :
    lacosBy program c (later ++ earlier) =
      lacosBy program c later ++ lacosBy program c earlier := by
  simp [lacosBy, lacos]

/-- The loops that a call executes in a run are those between its positions at
the two ends. -/
theorem lacosAt_of_run (run : Run (step program) start history s) (inv : Inv program start)
    (c : CallId) :
    lacosAt (program.op c) (s.pc c) (s.request c) =
      lacosBy program c history ++ lacosAt (program.op c) (start.pc c) (start.request c) := by
  induction run with
  | refl => rfl
  | @tail history source target label run executed ih =>
      have reached : Inv program source := inv.after_run run
      have newest : lacosBy program c (⟨source, label, target⟩ :: history) =
          lacosBy program c [⟨source, label, target⟩] ++ lacosBy program c history :=
        lacosBy_append c [⟨source, label, target⟩] history
      rw [newest, List.append_assoc, ← ih]
      exact lacosAt_step reached executed c

/-- The log entries of one call are its loops. -/
theorem updates_filter (program : Program) (c : CallId) (history : List (Event State Label)) :
    (updates program history).filter (fun entry => entry.1 = c) =
      (lacosBy program c history).map fun laco => (c, edit (program.op c) laco) := by
  simp only [updates, lacosBy]
  induction lacos program history with
  | nil => rfl
  | cons entry entries ih =>
      by_cases own : entry.1 = c
      · simp only [List.map_cons, List.filter_cons, own, decide_true, if_true, ih]
      · simp only [List.map_cons, List.filter_cons, own, decide_false, Bool.false_eq_true,
          if_false, ih]

theorem lacosBy_of_loop {event : Event State Label} {c : CallId} {laco : Laco}
    (loops : lacoOf program event = some (c, laco)) : lacosBy program c [event] = [laco] := by
  simp [lacosBy, lacos, loops]

theorem updates_of_loop {event : Event State Label} {c : CallId} {laco : Laco}
    (loops : lacoOf program event = some (c, laco)) :
    updates program [event] = [(c, edit (program.op c) laco)] := by
  simp [updates, lacos, loops]

/-- An event that runs a loop makes its update. -/
theorem callbackMap_of_loop {event : Event State Label} {c : CallId} {laco : Laco}
    (executed : step program event.source event.label = some event.target)
    (loops : lacoOf program event = some (c, laco)) :
    event.target.callbackMap = (edit (program.op c) laco).apply event.source.callbackMap := by
  rw [callbackMap_step executed, updates_of_loop loops]
  rfl

/-- Every update in the log was made by an event. -/
theorem exists_loop_of_mem_updates {history : List (Event State Label)} {c : CallId}
    {update : Edit StdString Callback} (member : (c, update) ∈ updates program history) :
    ∃ event ∈ history, ∃ laco, lacoOf program event = some (c, laco) ∧
      update = edit (program.op c) laco := by
  obtain ⟨⟨d, laco⟩, found, equal⟩ := List.mem_map.mp member
  obtain ⟨event, eventMember, loops⟩ := List.mem_filterMap.mp found
  cases equal
  exact ⟨event, eventMember, laco, loops, rfl⟩

/-- A call whose loops do not occur in a history is no author of its log. -/
theorem author_ne_of_lacosBy_eq_nil {history : List (Event State Label)} {c d : CallId}
    {update : Edit StdString Callback} (quiet : lacosBy program c history = [])
    (member : (d, update) ∈ updates program history) : d ≠ c := by
  rintro rfl
  have own := updates_filter program d history
  rw [quiet] at own
  have found : (d, update) ∈ (updates program history).filter fun entry => entry.1 = d :=
    List.mem_filter.mpr ⟨member, decide_eq_true rfl⟩
  rw [own] at found
  cases found

/-- A loop of a call is executed by an event that splits the history. -/
theorem exists_split_of_mem_lacosBy {history : List (Event State Label)} {c : CallId}
    {laco : Laco} (member : laco ∈ lacosBy program c history) :
    ∃ later event earlier, history = later ++ event :: earlier ∧
      lacoOf program event = some (c, laco) := by
  obtain ⟨⟨d, other⟩, found, rfl⟩ := List.mem_map.mp member
  obtain ⟨found, own⟩ := List.mem_filter.mp found
  obtain ⟨event, eventMember, loops⟩ := List.mem_filterMap.mp found
  obtain ⟨later, earlier, split⟩ := List.append_of_mem eventMember
  simp only [decide_eq_true_eq] at own
  subst own
  exact ⟨later, event, earlier, split, loops⟩

/-- Only subscribe calls insert. -/
theorem subscribe_of_inserir {event : Event State Label} {c : CallId}
    (executed : step program event.source event.label = some event.target)
    (loops : lacoOf program event = some (c, .inserir)) :
    ∃ args, program.op c = .subscribe args := by
  rcases label_of_lacoOf loops with ⟨ret, labelEq, pc⟩ | ⟨_, impossible, _⟩
  · rw [labelEq] at executed
    rcases op_of_loop executed pc with ⟨args, op, _⟩ | ⟨topicos, _, impossible⟩
    · exact ⟨args, op⟩
    · cases impossible
  · cases impossible

/-- An update that erases a topic is made by an erasure loop. -/
theorem removes_of_edit {event : Event State Label} {d : CallId} {laco : Laco}
    {keys : List StdString} {topico : StdString}
    (loops : lacoOf program event = some (d, laco))
    (erases : edit (program.op d) laco = .erase keys) (named : topico ∈ keys) :
    Removes program d topico event := by
  have topicos : topico ∈ (program.op d).topicos := by
    apply mem_topicos_of_mem_keys
    rw [erases]
    exact named
  cases laco with
  | desfazer => exact ⟨Or.inl loops, topicos⟩
  | apagar => exact ⟨Or.inr loops, topicos⟩
  | inserir =>
      cases op : program.op d with
      | subscribe args =>
          rw [op] at erases
          cases erases
      | conectar | unsubscribe | desconectar =>
          rw [op] at erases
          cases erases
          cases named

/-- An erasure loop erases all topics of its call. -/
theorem edit_of_erasing {event : Event State Label} {c : CallId} {laco : Laco}
    (executed : step program event.source event.label = some event.target)
    (loops : lacoOf program event = some (c, laco)) (erases : laco ≠ .inserir) :
    edit (program.op c) laco = .erase (program.op c).topicos := by
  rcases label_of_lacoOf loops with ⟨ret, labelEq, pc⟩ | ⟨_, rfl, _, args, _, op⟩
  · rw [labelEq] at executed
    rcases op_of_loop executed pc with ⟨args, op, inserts⟩ | ⟨topicos, op, rfl⟩
    · rw [op]
      cases laco with
      | inserir => exact absurd rfl erases
      | desfazer => rfl
      | apagar => exact absurd rfl inserts
    · rw [op]
      rfl
  · rw [op]
    rfl

/-- A removal leaves no entry. -/
theorem absent_of_removes {event : Event State Label} {c : CallId} {topico : StdString}
    (executed : step program event.source event.label = some event.target)
    (removes : Removes program c topico event) : event.target.callbackMap topico = none := by
  obtain ⟨loops | loops, named⟩ := removes
  all_goals
    rw [callbackMap_of_loop executed loops, edit_of_erasing executed loops (by simp)]
    exact Edit.apply_erase_of_mem _ named

/-- Loops run on behalf of calls in progress only. -/
theorem inProgress_of_loop {event : Event State Label} {c : CallId} {laco : Laco}
    (inv : Inv program event.source) (loops : lacoOf program event = some (c, laco)) :
    (event.source.pc c).inProgress = true := by
  rcases label_of_lacoOf loops with ⟨ret, _, pc⟩ | ⟨_, _, res, args, running, _⟩
  · rw [pc]
    rfl
  · have progress := inv.progress c
    rw [running] at progress
    cases pc : event.source.pc c with
    | idle =>
        rw [pc] at progress
        cases progress
    | returned value =>
        rw [pc] at progress
        rcases progress with impossible | ⟨_, impossible, _⟩ | ⟨_, impossible, _⟩ <;>
          cases impossible
    | _ => rfl

/-- A topic is updated by one call only while no other call that names it is in
progress. -/
theorem author_of_alone (run : Run (step program) start history s) (inv : Inv program start)
    {c : CallId} {topico : StdString}
    (alone : ∀ event ∈ history, ∀ d, d ≠ c → topico ∈ (program.op d).topicos →
      (event.source.pc d).inProgress = false)
    {d : CallId} {update : Edit StdString Callback}
    (member : (d, update) ∈ updates program history) (named : topico ∈ update.keys) : d = c := by
  obtain ⟨event, eventMember, laco, loops, rfl⟩ := exists_loop_of_mem_updates member
  obtain ⟨source, _⟩ := inv.at_event run eventMember
  by_contra other
  have still := alone event eventMember d other (mem_topicos_of_mem_keys named)
  rw [inProgress_of_loop source loops] at still
  cases still

end Calls

end PahoClient
