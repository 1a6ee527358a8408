import PahoClient.Client.Effects
import PahoClient.Client.Handlers

/-!
# Which handlers get the object they expect

The completion handlers and `mensagemRecebida` receive the context that their
registration stored, and test every optional pointer.  `perdida` shares its
registration with `mensagemRecebida` and casts the connect context to the class
of the client.
-/

namespace PahoClient

open PahoClient.Transition

/-- If the library enters a handler at the event, one is registered and its
casts and dereferences are right. -/
def HandledSafely (program : Program) (uri : StdString) (event : Event Sistema Evento) : Prop :=
  event.label.entersHandler = true →
    ∃ handler ctx args, invocada event.source event.label = some (handler, ctx, args) ∧
      (handler.run program event.source.estado uri ctx args).isSome = true

/-! ## Each handler -/

section Handlers

variable {program : Program} {s : State} {classe : Classe} {ctx : Objeto}

theorem staticCast_of_classe (right : ctx.classe program = some classe)
    (alive : ctx.vivo s = true) : staticCast program s classe ctx = some ctx :=
  if_pos ⟨right, alive⟩

/-- A handler whose cast is right does what follows the cast. -/
theorem isSome_of_cast {α : Type} {next : Objeto → Option α}
    (right : ctx.classe program = some classe) (alive : ctx.vivo s = true)
    (rest : (next ctx).isSome = true) :
    ((staticCast program s classe ctx).bind next).isSome = true := by
  rw [staticCast_of_classe right alive]
  exact rest

/-- The null tests of the `falha` handlers cover all their dereferences. -/
theorem diagnosticoDeFalha_isSome (text : String) (uri : StdString)
    (res : Option FailureData) : (diagnosticoDeFalha text uri res).isSome = true := by
  cases res with
  | none => rfl
  | some res =>
      rcases res with ⟨code, message⟩
      cases message <;> rfl

theorem Connect.falha.diagnostico_isSome (right : ctx.classe program = some .Connect)
    (alive : ctx.vivo s = true) (uri : StdString) (res : Option FailureData) :
    (Connect.falha.diagnostico program s uri ctx res).isSome = true :=
  isSome_of_cast right alive (diagnosticoDeFalha_isSome _ uri res)

theorem Subscribe.falha.diagnostico_isSome (right : ctx.classe program = some .Subscribe)
    (alive : ctx.vivo s = true) (uri : StdString) (res : Option FailureData) :
    (Subscribe.falha.diagnostico program s uri ctx res).isSome = true :=
  isSome_of_cast right alive (diagnosticoDeFalha_isSome _ uri res)

theorem Unsubscribe.falha.diagnostico_isSome (right : ctx.classe program = some .Unsubscribe)
    (alive : ctx.vivo s = true) (uri : StdString) (res : Option FailureData) :
    (Unsubscribe.falha.diagnostico program s uri ctx res).isSome = true :=
  isSome_of_cast right alive (diagnosticoDeFalha_isSome _ uri res)

theorem Disconnect.falha.diagnostico_isSome (right : ctx.classe program = some .Disconnect)
    (alive : ctx.vivo s = true) (uri : StdString) (res : Option FailureData) :
    (Disconnect.falha.diagnostico program s uri ctx res).isSome = true :=
  isSome_of_cast right alive (diagnosticoDeFalha_isSome _ uri res)

theorem Connect.sucesso.diagnostico_isSome (right : ctx.classe program = some .Connect)
    (alive : ctx.vivo s = true) (uri : StdString) :
    (Connect.sucesso.diagnostico program s uri ctx).isSome = true :=
  isSome_of_cast right alive rfl

theorem Disconnect.sucesso.diagnostico_isSome (right : ctx.classe program = some .Disconnect)
    (alive : ctx.vivo s = true) (uri : StdString) :
    (Disconnect.sucesso.diagnostico program s uri ctx).isSome = true :=
  isSome_of_cast right alive rfl

theorem Unsubscribe.sucesso.diagnostico_isSome (right : ctx.classe program = some .Unsubscribe)
    (alive : ctx.vivo s = true) :
    (Unsubscribe.sucesso.diagnostico program s ctx).isSome = true :=
  isSome_of_cast right alive rfl

theorem Connect.mensagemRecebida.client_isSome (right : ctx.classe program = some .Connect)
    (alive : ctx.vivo s = true) :
    (Connect.mensagemRecebida.client program s ctx).isSome = true :=
  isSome_of_cast right alive rfl

theorem Subscribe.sucesso.diagnostico_isSome {c : CallId} {args : Subscribe.Args}
    (op : program.op c = .subscribe args) (alive : (s.pc c).inProgress = true)
    (uri : StdString) (res : SuccessData) :
    (Subscribe.sucesso.diagnostico program s uri (.contexto (.pedido c)) res).isSome = true := by
  have right : (Objeto.contexto (.pedido c)).classe program = some .Subscribe := by
    simp [Objeto.classe, op]
  have stored : (Objeto.contexto (.pedido c)).argumentos program = some args := by
    simp [Objeto.argumentos, op]
  simp only [Subscribe.sucesso.diagnostico, staticCast_of_classe right alive, stored,
    Option.bind_eq_bind, Option.bind_some]
  split <;> rfl

theorem classe_contextOf (program : Program) (c : CallId) :
    (Objeto.contexto (contextOf (program.op c) c)).classe program =
      some (program.op c).classe := by
  cases op : program.op c <;> simp [contextOf, Objeto.classe, Operation.classe, op]

theorem vivo_contextOf {c : CallId} (alive : (s.pc c).inProgress = true) (op : Operation) :
    (Objeto.contexto (contextOf op c)).vivo s = true := by
  cases op with
  | conectar | desconectar => rfl
  | subscribe | unsubscribe => exact alive

/-- The handlers that a call registers work on the context that it registers
them with, while the call is in progress. -/
theorem run_opcoesDe_isSome {c : CallId} (alive : (s.pc c).inProgress = true)
    (uri : StdString) (res : Completion) {handler : Handler} {args : Argumentos}
    (reported : (opcoesDe (program.op c) c).chamada res = (handler, ctx, args)) :
    (handler.run program s uri ctx args).isSome = true := by
  have right := classe_contextOf program c
  have living := vivo_contextOf alive (program.op c)
  cases op : program.op c with
  | conectar =>
      rw [op] at reported right living
      cases res with
      | onFailure res =>
          cases reported
          exact Connect.falha.diagnostico_isSome right living uri res
      | onSuccess res =>
          cases reported
          exact Connect.sucesso.diagnostico_isSome right living uri
  | subscribe subscribed =>
      rw [op] at reported right living
      cases res with
      | onFailure res =>
          cases reported
          exact Subscribe.falha.diagnostico_isSome right living uri res
      | onSuccess res =>
          cases reported
          exact Subscribe.sucesso.diagnostico_isSome op alive uri res
  | unsubscribe topicos =>
      rw [op] at reported right living
      cases res with
      | onFailure res =>
          cases reported
          exact Unsubscribe.falha.diagnostico_isSome right living uri res
      | onSuccess res =>
          cases reported
          exact Unsubscribe.sucesso.diagnostico_isSome right living
  | desconectar =>
      rw [op] at reported right living
      cases res with
      | onFailure res =>
          cases reported
          exact Disconnect.falha.diagnostico_isSome right living uri res
      | onSuccess res =>
          cases reported
          exact Disconnect.sucesso.diagnostico_isSome right living uri

theorem classe_contexto_ne (x : ContextId) :
    (Objeto.contexto x).classe program ≠ some .MQTTClient := by
  cases x with
  | conexao | desconexao => simp [Objeto.classe]
  | pedido c => cases op : program.op c <;> simp [Objeto.classe, op]

/-- No context is an object of the class that `perdida` casts to. -/
theorem perdida_of_contexto (x : ContextId) (uri : StdString) (cause : Option String) :
    Connect.perdida program s uri (.contexto x) cause = none := by
  have wrong : staticCast program s .MQTTClient (.contexto x) = none :=
    if_neg fun right => classe_contexto_ne x right.1
  simp [Connect.perdida, wrong]

/-- Even with the client as its context, `perdida` needs a cause. -/
theorem perdida_of_client (uri : StdString) (cause : Option String) :
    (Connect.perdida program s uri .client cause).isSome = cause.isSome := by
  cases cause <;> rfl

end Handlers

/-! ## Registrations along a run -/

/-- What the library has registered. -/
structure Registered (program : Program) (s : Sistema) : Prop where
  inv : Inv program s.estado
  registro : ∀ registro, s.registro = some registro → registro = Connect.registro
  opcoes : ∀ c, (s.estado.request c).accepted = true →
    s.opcoes c = some (opcoesDe (program.op c) c)

section Runs

variable {program : Program} {s t : Sistema} {event : Evento} {label : Label}

theorem registered_initial (program : Program) (callbackMap : CallbackMap) (conectado : Bool) :
    Registered program (Sistema.initial callbackMap conectado) where
  inv := inv_initial program callbackMap conectado
  registro := by simp [Sistema.initial]
  opcoes := by simp [Sistema.initial, initial, Request.accepted]

theorem registroApos_cases (s : Sistema) (label : Label) :
    registroApos s label = s.registro ∨ registroApos s label = some Connect.registro := by
  unfold registroApos
  split
  · split
    · exact Or.inr rfl
    · exact Or.inl rfl
  · exact Or.inl rfl

theorem opcoesApos_cases (program : Program) (s : Sistema) (label : Label) (c : CallId) :
    opcoesApos program s label c = s.opcoes c ∨
      opcoesApos program s label c = some (opcoesDe (program.op c) c) := by
  unfold opcoesApos
  split
  · rename_i d ret
    split
    · by_cases own : c = d
      · subst d
        exact Or.inr (Function.update_self ..)
      · exact Or.inl (Function.update_of_ne own ..)
    · exact Or.inl rfl
  · exact Or.inl rfl

/-- An accepted command was accepted before, or its options are stored now. -/
theorem opcoesApos_of_accepted (registered : Registered program s) {after : State}
    (executed : step program s.estado label = some after) {c : CallId}
    (accepted : (after.request c).accepted = true) :
    opcoesApos program s label c = some (opcoesDe (program.op c) c) := by
  have kept : (s.estado.request c).accepted = true →
      opcoesApos program s label c = some (opcoesDe (program.op c) c) := by
    intro before
    rcases opcoesApos_cases program s label c with same | stored
    · rw [same]
      exact registered.opcoes c before
    · exact stored
  rcases request_cases executed c with same | ⟨ret, rfl, command, issued⟩ |
    ⟨_, _, pending, _, _⟩ | ⟨_, _, ready, _⟩ | ⟨_, _, _, running, _⟩
  · rw [same] at accepted
    exact kept accepted
  · rw [issued] at accepted
    split at accepted
    · rename_i success
      simp [opcoesApos, command, success]
    · cases accepted
  · exact kept (by rw [pending]; rfl)
  · exact kept (by rw [ready]; rfl)
  · exact kept (by rw [running]; rfl)

theorem Registered.step (registered : Registered program s)
    (executed : eventStep program s event = some t) : Registered program t := by
  cases event with
  | passo label =>
      simp only [eventStep] at executed
      split at executed
      · obtain ⟨after, stepped, rfl⟩ := Option.map_eq_some_iff.mp executed
        constructor
        · exact registered.inv.step stepped
        · intro registro stored
          rcases registroApos_cases s label with same | new
          · exact registered.registro registro (same ▸ stored)
          · exact (Option.some.inj (new.symm.trans stored)).symm
        · intro c accepted
          exact opcoesApos_of_accepted registered stepped accepted
      · cases executed
  | perda cause =>
      simp only [eventStep] at executed
      split at executed
      · cases executed
        exact ⟨registered.inv.frame rfl rfl rfl rfl, registered.registro, registered.opcoes⟩
      · cases executed

/-- A call whose command is about to be reported is in progress. -/
theorem inProgress_of_ready {estado : State} (inv : Inv program estado) {c : CallId}
    {res : Completion} (ready : estado.request c = .ready res) :
    (estado.pc c).inProgress = true := by
  have progress := inv.progress c
  rw [ready] at progress
  cases pc : estado.pc c with
  | idle | returned => simp [pc, PahoClient.progress] at progress
  | _ => rfl

/-- Completions and messages are handled safely from every registered state. -/
theorem handledSafely_of_passo (registered : Registered program s) (uri : StdString)
    (executed : eventStep program s (.passo label) = some t) :
    HandledSafely program uri ⟨s, .passo label, t⟩ := by
  intro enters
  simp only [eventStep] at executed
  split at executed
  · rename_i allowed
    obtain ⟨after, stepped, _⟩ := Option.map_eq_some_iff.mp executed
    cases label with
    | deliver c =>
        cases step_effect stepped with
        | @deliver _ res ready =>
            have accepted : (s.estado.request c).accepted = true := by
              rw [ready]
              rfl
            have stored := registered.opcoes c accepted
            rcases reported : (opcoesDe (program.op c) c).chamada res with ⟨handler, ctx, args⟩
            refine ⟨handler, ctx, args, ?_, ?_⟩
            · simp [invocada, ready, stored, reported]
            · exact run_opcoesDe_isSome (inProgress_of_ready registered.inv ready) uri res reported
    | arrive m =>
        obtain ⟨registro, stored⟩ := Option.isSome_iff_exists.mp allowed
        cases registered.registro registro stored
        refine ⟨.connectMensagemRecebida, .contexto .conexao, .messageArrived, ?_, ?_⟩
        · simp [invocada, stored, Connect.registro]
        · rw [Handler.run, Option.isSome_map]
          exact Connect.mensagemRecebida.client_isSome rfl rfl
    | start | call | wake | complete | handler | message | network => cases enters
  · cases executed

/-- A lost connection is never handled safely. -/
theorem not_handledSafely_of_perda (registered : Registered program s) (uri : StdString)
    (cause : Option String) : ¬ HandledSafely program uri ⟨s, .perda cause, t⟩ := by
  intro safely
  obtain ⟨handler, ctx, args, entered, done⟩ := safely rfl
  simp only [invocada] at entered
  obtain ⟨registro, stored, equal⟩ := Option.map_eq_some_iff.mp entered
  cases registered.registro registro stored
  cases equal
  simp [Connect.registro, Handler.run, perdida_of_contexto] at done

/-- Every event of a run is a step of a client with known registrations. -/
theorem Registered.at_event {callbackMap : CallbackMap} {conectado : Bool}
    {history : List (Event Sistema Evento)}
    (run : Run (eventStep program) (Sistema.initial callbackMap conectado) history s)
    {event : Event Sistema Evento} (member : event ∈ history) :
    Registered program event.source ∧
      eventStep program event.source event.label = some event.target := by
  obtain ⟨source, executed, _⟩ := run.invariant_of_mem (Registered program)
    (registered_initial program callbackMap conectado)
    (fun _ _ _ registered executed => registered.step executed) member
  exact ⟨source, executed⟩

end Runs

/-- Every handler that a run enters gets an object of the class it casts to and
uses no null pointer, exactly in the runs in which the connection is not
reported lost. -/
theorem events_handled_safely_iff (program : Program) (uri : StdString)
    (callbackMap : CallbackMap) (conectado : Bool) {history : List (Event Sistema Evento)}
    {s : Sistema}
    (run : Run (eventStep program) (Sistema.initial callbackMap conectado) history s) :
    (∀ event ∈ history, HandledSafely program uri event) ↔
      ∀ event ∈ history, ∀ cause, event.label ≠ .perda cause := by
  constructor
  · intro safely event member cause lost
    obtain ⟨registered, _⟩ := Registered.at_event run member
    have handled := safely event member
    rcases event with ⟨source, label, target⟩
    cases lost
    exact not_handledSafely_of_perda registered uri cause handled
  · intro lossless event member
    obtain ⟨registered, executed⟩ := Registered.at_event run member
    have notLost := lossless event member
    rcases event with ⟨source, label, target⟩
    cases label with
    | passo label => exact handledSafely_of_passo registered uri executed
    | perda cause => exact absurd rfl (notLost cause)

/-- One connect call and one subscribe call. -/
def programaComQueda : Program where
  op c := if c = 0 then .conectar else .subscribe (Subscribe.Args.ofPairs [([97], ⟨1⟩)])
  topico _ := [97]

/-- The connect call sets the callbacks and succeeds. -/
def conexaoComCallbacks : List Label :=
  [.start 0, .call 0 0, .call 0 0, .call 0 0, .call 0 0, .complete 0 (.onSuccess ⟨0, [], 0⟩),
    .deliver 0]

/-- A message arrives, and the subscribe call fails without a text. -/
def inscricaoFalha : List Label :=
  [.start 1, .call 1 0, .call 1 0, .call 1 0, .call 1 0, .call 1 0,
    .complete 1 (.onFailure (some ⟨-1, none⟩)), .arrive 0, .deliver 1]

theorem events_handled_safely_iff_connected :
    ∃ history s,
      Run (eventStep programaComQueda) (Sistema.initial (fun _ => none) false) history s ∧
        s.estado.active.length = 3 ∧
        ∀ event ∈ history, HandledSafely programaComQueda [] event := by
  obtain ⟨s, run, view⟩ := exists_run_of_execute (eventStep programaComQueda)
    (Sistema.initial (fun _ => none) false)
    ((conexaoComCallbacks ++ inscricaoFalha).map Evento.passo)
    (fun s => s.estado.active.length) 3 (by decide)
  refine ⟨_, s, run, view, (events_handled_safely_iff _ [] _ _ run).mpr ?_⟩
  intro event member cause lost
  have named := label_mem_of_mem_eventsOf member
  rw [lost] at named
  simp at named

/-- The connection of a connected client is lost, and the library gives no
cause. -/
theorem events_not_always_handled_safely :
    ¬ ∀ (program : Program) (uri : StdString) (callbackMap : CallbackMap) (conectado : Bool)
      (history : List (Event Sistema Evento)) (s : Sistema),
      Run (eventStep program) (Sistema.initial callbackMap conectado) history s →
        ∀ event ∈ history, HandledSafely program uri event := by
  intro safely
  obtain ⟨s, run, -⟩ := exists_run_of_execute (eventStep programaComQueda)
    (Sistema.initial (fun _ => none) false)
    (conexaoComCallbacks.map Evento.passo ++ [.perda none])
    (fun s => s.estado.conectado) false (by decide)
  obtain ⟨event, member, found⟩ := exists_mem_eventsOf (eventStep programaComQueda)
    (Sistema.initial (fun _ => none) false)
    (conexaoComCallbacks.map Evento.passo ++ [.perda none])
    (fun event => event.label == .perda none) (by decide)
  obtain ⟨registered, _⟩ := Registered.at_event run member
  have handled := safely _ [] _ _ _ _ run event member
  rcases event with ⟨source, label, target⟩
  cases beq_iff_eq.mp found
  exact not_handledSafely_of_perda registered [] none handled

end PahoClient
