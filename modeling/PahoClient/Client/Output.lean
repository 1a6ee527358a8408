import PahoClient.Client.Budget
import PahoClient.Client.Handlers

/-!
# What the client writes

The statements of a call write to `std::cerr` when they give up, and a completion
handler writes before it takes its first lock.
-/

namespace PahoClient

open PahoClient.Transition

/-- A standard stream. -/
inductive Fluxo where
  | cout
  | cerr
  deriving DecidableEq, Repr

/-- A line that the client writes. -/
structure Escrita where
  fluxo : Fluxo
  texto : StdString
  deriving DecidableEq, Repr

/-- What the texts depend on: `_broker_uri`, and the texts that `_dll.strerror`
gives. -/
structure Ambiente where
  brokerUri : StdString
  strerror : Int → StdString

section Texts

variable (ambiente : Ambiente) (ret : Int)

def Connect.despachar.erroDeSetCallbacks : StdString :=
  literal "MQTTClient::Connect::despachar: Erro em setCallbacks(): " ++ ambiente.strerror ret ++
    literal " no broker " ++ ambiente.brokerUri ++ literal ".\n"

def Connect.despachar.erroDeConnect : StdString :=
  literal "MQTTClient::conectar: Erro em connect(): " ++ ambiente.strerror ret ++
    literal " no broker " ++ ambiente.brokerUri ++ literal ".\n"

def Subscribe.despachar.erroDeVetorVazio : StdString :=
  literal "MQTTClient::Subscribe::despachar: O vetor de tópicos está vazio.\n"

def Unsubscribe.despachar.erro : StdString :=
  literal "MQTTClient::unsubscribe: Falha ao se desinscrever em tópicos no broker " ++
    ambiente.brokerUri ++ literal ". Código: " ++ literal (toString ret) ++
    literal ", mensagem: " ++ ambiente.strerror ret ++ literal "\n"

def Disconnect.despachar.erro : StdString :=
  literal "MQTTClient::Disconnect::despachar: Erro ao desconectar do broker em " ++
    ambiente.brokerUri ++ literal ". Código:" ++ literal (toString ret) ++
    literal ", mensagem: " ++ ambiente.strerror ret ++ literal "\n"

/-- What the next statement of a call writes.  `Subscribe::despachar` builds a
message for a rejected command and does not write it. -/
def despachar.escreve (op : Operation) (pc : Pc) : List Escrita :=
  match op, pc with
  | .conectar, .setCallbacks =>
      if ret = MQTTASYNC_SUCCESS then []
      else [⟨.cerr, Connect.despachar.erroDeSetCallbacks ambiente ret⟩]
  | .conectar, .command =>
      if ret = MQTTASYNC_SUCCESS then []
      else [⟨.cerr, Connect.despachar.erroDeConnect ambiente ret⟩]
  | .subscribe args, .testVazio =>
      if args.topicos.isEmpty then [⟨.cerr, Subscribe.despachar.erroDeVetorVazio⟩] else []
  | .unsubscribe _, .command =>
      if ret = MQTTASYNC_SUCCESS then []
      else [⟨.cerr, Unsubscribe.despachar.erro ambiente ret⟩]
  | .desconectar, .command =>
      if ret = MQTTASYNC_SUCCESS then []
      else [⟨.cerr, Disconnect.despachar.erro ambiente ret⟩]
  | _, _ => []

end Texts

/-- The stream that a handler writes to. -/
def Handler.fluxo : Handler → Fluxo
  | connectSucesso | disconnectSucesso => .cout
  | connectFalha | connectPerdida | connectMensagemRecebida | subscribeFalha | subscribeSucesso
  | unsubscribeFalha | unsubscribeSucesso | disconnectFalha => .cerr

/-- What the handler that reports a completion writes. -/
def relatorio (program : Program) (ambiente : Ambiente) (s : State) (c : CallId)
    (res : Completion) : List Escrita :=
  match (opcoesDe (program.op c) c).chamada res with
  | (handler, ctx, args) =>
      match handler.run program s ambiente.brokerUri ctx args with
      | none => []
      | some texto => if texto = [] then [] else [⟨handler.fluxo, texto⟩]

/-- What a step writes. -/
def escritas (program : Program) (ambiente : Ambiente) (s : State) : Label → List Escrita
  | .call c ret => despachar.escreve ambiente ret (program.op c) (s.pc c)
  | .handler c =>
      match s.request c with
      | .running res .start => relatorio program ambiente s c res
      | _ => []
  | _ => []

/-- What a call and the handler of its command have written, newest first. -/
def escritasDe (program : Program) (ambiente : Ambiente) (c : CallId) :
    List (Event State Label) → List Escrita
  | [] => []
  | event :: earlier =>
      if event.label.tarefa = some (.inl c) then
        escritas program ambiente event.source event.label ++ escritasDe program ambiente c earlier
      else
        escritasDe program ambiente c earlier

/-- The lines on `std::cerr`. -/
def erros (linhas : List Escrita) : List Escrita :=
  linhas.filter fun linha => linha.fluxo = .cerr

/-! ## The lines of a handler -/

section Reports

variable {program : Program} {s : State} {c : CallId}

theorem literal_ne_nil {text : String} (written : text ≠ "") : literal text ≠ [] := by
  intro empty
  apply written
  apply String.utf8ByteSize_eq_zero_iff.mp
  rw [← String.size_toByteArray]
  simpa [literal] using congrArg List.length empty

/-- Every `falha` handler writes its text on `std::cerr`. -/
theorem diagnosticoDeFalha_written {text : String} (written : text ≠ "") (uri : StdString)
    (res : Option FailureData) {fluxo : Fluxo} (stream : fluxo = .cerr) {outcome : Bool}
    (fails : outcome = false) :
    ∃ texto, diagnosticoDeFalha text uri res = some texto ∧
      (fluxo = .cerr ∧ texto ≠ [] ↔ outcome = false) := by
  have nonempty := literal_ne_nil written
  cases res with
  | none => exact ⟨_, rfl, by simp [nonempty, stream, fails]⟩
  | some res =>
      rcases res with ⟨code, message⟩
      cases message <;> exact ⟨_, rfl, by simp [nonempty, stream, fails]⟩

/-- The loop over the returned codes finds a refused topic if there is a refused
code. -/
theorem find?_zip_isSome (args : Subscribe.Args) (res : SuccessData) :
    ((args.topicos.zip ((Subscribe.qosDevolvidos args res).zip
      (Subscribe.qosRequisitados args))).find? fun entry =>
        Subscribe.codigoRecusado entry.2.1 entry.2.2).isSome = Subscribe.recusado args res := by
  let codigos := (Subscribe.qosDevolvidos args res).zip (Subscribe.qosRequisitados args)
  have covered : codigos.length ≤ args.topicos.length := by
    have requested := Subscribe.qosRequisitados_length args
    have short : codigos.length ≤ (Subscribe.qosRequisitados args).length := by
      rw [List.length_zip]
      exact Nat.min_le_right _ _
    omega
  have codes : (args.topicos.zip codigos).map Prod.snd = codigos :=
    List.map_snd_zip covered
  have found : Subscribe.recusado args res =
      (args.topicos.zip codigos).any fun entry =>
        Subscribe.codigoRecusado entry.2.1 entry.2.2 := by
    rw [Subscribe.recusado]
    conv_lhs => rw [show (Subscribe.qosDevolvidos args res).zip (Subscribe.qosRequisitados args) =
      (args.topicos.zip codigos).map Prod.snd from codes.symm]
    rw [List.any_map]
    rfl
  rw [found, Bool.eq_iff_iff, List.find?_isSome, List.any_eq_true]

/-- The objects that a handler of a call in progress works on. -/
theorem staticCast_contextOf (program : Program) (alive : (s.pc c).inProgress = true) :
    staticCast program s (program.op c).classe (.contexto (contextOf (program.op c) c)) =
      some (.contexto (contextOf (program.op c) c)) := by
  apply if_pos
  cases op : program.op c with
  | conectar | desconectar => exact ⟨rfl, rfl⟩
  | subscribe | unsubscribe =>
      exact ⟨by simp [contextOf, Objeto.classe, Operation.classe, op], alive⟩

/-- The `falha` or the `sucesso` handler of an operation. -/
def handlerDe : Operation → Completion → Handler
  | .conectar, .onFailure _ => .connectFalha
  | .conectar, .onSuccess _ => .connectSucesso
  | .subscribe _, .onFailure _ => .subscribeFalha
  | .subscribe _, .onSuccess _ => .subscribeSucesso
  | .unsubscribe _, .onFailure _ => .unsubscribeFalha
  | .unsubscribe _, .onSuccess _ => .unsubscribeSucesso
  | .desconectar, .onFailure _ => .disconnectFalha
  | .desconectar, .onSuccess _ => .disconnectSucesso

def argumentosDe : Completion → Argumentos
  | .onFailure data => .onFailure data
  | .onSuccess data => .onSuccess data

theorem chamada_opcoesDe (op : Operation) (c : CallId) (res : Completion) :
    (opcoesDe op c).chamada res =
      (handlerDe op res, .contexto (contextOf op c), argumentosDe res) := by
  cases op <;> cases res <;> rfl

/-- `Subscribe::sucesso` writes when it finds a refused code. -/
theorem Subscribe.sucesso.diagnostico_eq {args : Subscribe.Args}
    (op : program.op c = .subscribe args) (alive : (s.pc c).inProgress = true) (uri : StdString)
    (data : SuccessData) :
    ∃ texto, Subscribe.sucesso.diagnostico program s uri (.contexto (.pedido c)) data =
      some texto ∧ (texto ≠ [] ↔ Subscribe.recusado args data = true) := by
  have cast := staticCast_contextOf program alive
  rw [op] at cast
  have stored : (Objeto.contexto (.pedido c)).argumentos program = some args := by
    simp [Objeto.argumentos, op]
  have found := find?_zip_isSome args data
  simp only [Subscribe.sucesso.diagnostico, Operation.classe, contextOf] at cast ⊢
  simp only [cast, stored, Option.bind_eq_bind, Option.bind_some]
  cases refused : Subscribe.recusado args data with
  | true =>
    rw [refused] at found
    obtain ⟨⟨topico, devolvido, requisitado⟩, first⟩ := Option.isSome_iff_exists.mp found
    rw [first]
    exact ⟨_, rfl, by simp [literal_ne_nil]⟩
  | false =>
    rw [refused, Option.isSome_eq_false_iff, Option.isNone_iff_eq_none] at found
    rw [found]
    exact ⟨[], rfl, by simp⟩

/-- A handler runs, and writes on `std::cerr` when the call fails. -/
theorem handlerDe_run (program : Program) (alive : (s.pc c).inProgress = true) (uri : StdString)
    (res : Completion) :
    ∃ texto, (handlerDe (program.op c) res).run program s uri
        (.contexto (contextOf (program.op c) c)) (argumentosDe res) = some texto ∧
      ((handlerDe (program.op c) res).fluxo = .cerr ∧ texto ≠ [] ↔
        (program.op c).outcome res = false) := by
  have cast := staticCast_contextOf program alive
  cases op : program.op c with
  | conectar =>
      rw [op] at cast
      simp only [Operation.classe, contextOf] at cast
      cases res with
      | onFailure data =>
          simp only [handlerDe, argumentosDe, contextOf, Handler.run,
            Connect.falha.diagnostico, cast, Option.bind_eq_bind, Option.bind_some]
          exact diagnosticoDeFalha_written (by decide) uri data rfl rfl
      | onSuccess data =>
          simp only [handlerDe, argumentosDe, contextOf, Handler.run,
            Connect.sucesso.diagnostico, cast, Option.bind_eq_bind, Option.bind_some]
          exact ⟨_, rfl, by simp [Handler.fluxo, Operation.outcome]⟩
  | subscribe args =>
      rw [op] at cast
      simp only [Operation.classe, contextOf] at cast
      cases res with
      | onFailure data =>
          simp only [handlerDe, argumentosDe, contextOf, Handler.run,
            Subscribe.falha.diagnostico, cast, Option.bind_eq_bind, Option.bind_some]
          exact diagnosticoDeFalha_written (by decide) uri data rfl rfl
      | onSuccess data =>
          obtain ⟨texto, ran, found⟩ := Subscribe.sucesso.diagnostico_eq op alive uri data
          refine ⟨texto, ran, ?_⟩
          simp [handlerDe, Handler.fluxo, Operation.outcome, found]
  | unsubscribe topicos =>
      rw [op] at cast
      simp only [Operation.classe, contextOf] at cast
      cases res with
      | onFailure data =>
          simp only [handlerDe, argumentosDe, contextOf, Handler.run,
            Unsubscribe.falha.diagnostico, cast, Option.bind_eq_bind, Option.bind_some]
          exact diagnosticoDeFalha_written (by decide) uri data rfl rfl
      | onSuccess data =>
          simp only [handlerDe, argumentosDe, contextOf, Handler.run,
            Unsubscribe.sucesso.diagnostico, cast, Option.bind_eq_bind, Option.bind_some]
          exact ⟨_, rfl, by simp [Handler.fluxo, Operation.outcome]⟩
  | desconectar =>
      rw [op] at cast
      simp only [Operation.classe, contextOf] at cast
      cases res with
      | onFailure data =>
          simp only [handlerDe, argumentosDe, contextOf, Handler.run,
            Disconnect.falha.diagnostico, cast, Option.bind_eq_bind, Option.bind_some]
          exact diagnosticoDeFalha_written (by decide) uri data rfl rfl
      | onSuccess data =>
          simp only [handlerDe, argumentosDe, contextOf, Handler.run,
            Disconnect.sucesso.diagnostico, cast, Option.bind_eq_bind, Option.bind_some]
          exact ⟨_, rfl, by simp [Handler.fluxo, Operation.outcome]⟩

/-- A handler writes one line on `std::cerr` if the call fails, and none if it
succeeds. -/
theorem erros_relatorio (ambiente : Ambiente) (alive : (s.pc c).inProgress = true)
    (res : Completion) :
    (erros (relatorio program ambiente s c res)).length =
      if (program.op c).outcome res then 0 else 1 := by
  obtain ⟨texto, ran, fails⟩ := handlerDe_run program alive ambiente.brokerUri res
  simp only [relatorio, chamada_opcoesDe, ran]
  cases outcome : (program.op c).outcome res with
  | true =>
      rw [outcome] at fails
      by_cases empty : texto = []
      · simp [empty, erros]
      · have stream : (handlerDe (program.op c) res).fluxo ≠ .cerr := by
          intro cerr
          exact absurd (fails.mp ⟨cerr, empty⟩) (by simp)
        simp [empty, erros, stream]
  | false =>
      obtain ⟨cerr, nonempty⟩ := fails.mpr outcome
      simp [nonempty, erros, cerr]

end Reports

end PahoClient
