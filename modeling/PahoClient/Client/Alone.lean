import PahoClient.Client.Broker

/-!
# Calls that no other call disturbs

While a call runs the connection can change behind its back and other calls can
update the table.  When neither happens the call has exactly its big-step
meaning, and a series of such calls has the meaning of its list of steps.
-/

namespace PahoClient

open PahoClient.Transition
open PahoClient.Store

/-! ## The connection as one call sees it -/

/-- The step may change the connection behind the back of the call. -/
def Label.alteraConexao (program : Program) (c : CallId) : Label → Bool
  | .network _ => true
  | .complete d _ => d != c && (program.op d).usesConexao
  | _ => false

/-- The connection after as much of the command as the library has finished. -/
def Request.conectado (op : Operation) (antes : Bool) : Request → Bool
  | ready res | running res _ | done res => conectadoAfter op res antes
  | unissued | rejected _ | pending => antes

/-- What a call has learnt from its test of the connection. -/
def testado (conectado : Bool) (op : Operation) (pc : Pc) (request : Request) : Prop :=
  match op, pc with
  | .conectar, .setCallbacks | .conectar, .command | .conectar, .waitLock
  | .conectar, .waitTest | .conectar, .waiting | .conectar, .waitUnlock _ => conectado = false
  | .conectar, .unlockConexao value | .conectar, .returned value =>
      (conectado = true ∧ request = .unissued ∧ value = true) ∨
        conectado = false ∧ (request = .unissued → value = false)
  | .desconectar, .lockConexao | .desconectar, .command | .desconectar, .waitLock
  | .desconectar, .waitTest | .desconectar, .waiting | .desconectar, .waitUnlock _ =>
      conectado = true
  | .desconectar, .unlockConexao _ => conectado = true ∧ request ≠ .unissued
  | .desconectar, .returned value =>
      (conectado = false ∧ request = .unissued ∧ value = true) ∨
        conectado = true ∧ request ≠ .unissued
  | _, _ => True

section Runs

variable {program : Program} {s t start : State} {label : Label}
  {history : List (Event State Label)} {c : CallId} {conectado : Bool}

/-- The connection follows the command of the call. -/
theorem conectado_step (inv : Inv program s) (executed : step program s label = some t)
    (undisturbed : label.alteraConexao program c = false)
    (before : s.conectado = (s.request c).conectado (program.op c) conectado) :
    t.conectado = (t.request c).conectado (program.op c) conectado := by
  by_cases finishes : ∃ res, label = .complete c res
  · obtain ⟨res, rfl⟩ := finishes
    cases step_effect executed with
    | complete pending answered =>
        rw [pending] at before
        change s.conectado = conectado at before
        simp [State.setRequest, Request.conectado, before]
  have same : t.conectado = s.conectado := by
    rcases conectado_cases executed with same | ⟨other, rfl⟩ | ⟨d, res, rfl, _, uses⟩
    · exact same
    · cases undisturbed
    · have own : d = c := by simpa [Label.alteraConexao, uses] using undisturbed
      subst d
      exact absurd ⟨res, rfl⟩ finishes
  rw [same, before]
  rcases request_cases executed c with unchanged | ⟨ret, _, pc, issued⟩ |
    ⟨res, labelEq, _⟩ | ⟨res, _, ready, running⟩ | ⟨res, pc, _, running, next⟩
  · rw [unchanged]
  · rw [inv.unissued_of_command pc, issued]
    split <;> rfl
  · exact absurd ⟨res, labelEq⟩ finishes
  · rw [ready, running]
    rfl
  · rw [running, next]
    cases pc <;> rfl

theorem testado_call (inv : Inv program s) {ret : Int}
    (executed : step program s (.call c ret) = some t)
    (connection : s.conectado = (s.request c).conectado (program.op c) conectado)
    (before : testado conectado (program.op c) (s.pc c) (s.request c)) :
    testado conectado (program.op c) (t.pc c) (t.request c) := by
  have progress := inv.progress c
  rw [pc_of_call executed, request_of_call executed]
  simp only [step] at executed
  cases op : program.op c with
  | subscribe args | unsubscribe topicos => trivial
  | conectar =>
      simp only [op, despachar, Connect.despachar] at executed
      rw [op] at before progress connection
      cases pc : s.pc c with
      | testConectado =>
          rw [pc] at progress
          rw [show s.request c = .unissued from progress] at connection ⊢
          simp only [Request.conectado] at connection
          simp only [callNext, pc]
          split_ifs <;> simp_all [testado]
      | setCallbacks =>
          simp only [callNext, pc]
          split_ifs <;> simp_all [testado]
      | command =>
          simp only [callNext, pc]
          split_ifs <;> simp_all [testado]
      | waitTest =>
          simp only [callNext, pc, waitNext]
          split <;> simp_all [testado]
      | waitUnlock value =>
          rw [pc] at progress
          obtain ⟨res, done, _⟩ := progress
          simp_all [testado, callNext, waitNext]
      | lockConexao | waitLock | waiting | unlockConexao =>
          simp_all [testado, callNext, waitNext]
      | idle | testVazio | acquire | loop | release | returned =>
          simp [Contexto.esperar, pc] at executed
  | desconectar =>
      simp only [op, despachar, Disconnect.despachar] at executed
      rw [op] at before progress connection
      cases pc : s.pc c with
      | testConectado =>
          rw [pc] at progress
          rw [show s.request c = .unissued from progress] at connection ⊢
          simp only [Request.conectado] at connection
          simp only [callNext, pc]
          split_ifs <;> simp_all [testado]
      | command =>
          simp only [callNext, pc]
          split_ifs <;> simp_all [testado]
      | waitTest =>
          simp only [callNext, pc, waitNext]
          split <;> simp_all [testado]
      | waitUnlock value =>
          rw [pc] at progress
          obtain ⟨res, done, _⟩ := progress
          simp_all [testado, callNext, waitNext]
      | lockConexao | waitLock | waiting | unlockConexao =>
          simp_all [testado, callNext, waitNext]
      | idle | testVazio | setCallbacks | acquire | loop | release | returned =>
          simp [Contexto.esperar, pc] at executed

/-- What is learnt from the test does not depend on how far an accepted command
is. -/
theorem testado_of_accepted {op : Operation} {pc : Pc} {request request' : Request}
    (before : testado conectado op pc request) (accepted : request.accepted = true)
    (still : request'.accepted = true) : testado conectado op pc request' := by
  have first : request ≠ .unissued := by
    rintro rfl
    cases accepted
  have second : request' ≠ .unissued := by
    rintro rfl
    cases still
  cases op with
  | subscribe args | unsubscribe topicos => trivial
  | conectar | desconectar => cases pc <;> simp_all [testado]

theorem testado_step (inv : Inv program s) (executed : step program s label = some t)
    (connection : s.conectado = (s.request c).conectado (program.op c) conectado)
    (before : testado conectado (program.op c) (s.pc c) (s.request c)) :
    testado conectado (program.op c) (t.pc c) (t.request c) := by
  by_cases own : ∃ ret, label = .call c ret
  · obtain ⟨ret, rfl⟩ := own
    exact testado_call inv executed connection before
  have notCall : ∀ ret, label ≠ .call c ret := fun ret labelEq => own ⟨ret, labelEq⟩
  rcases pc_of_not_call executed notCall with same | ⟨_, entry⟩
  · rw [same]
    rcases request_of_not_call executed notCall with unchanged | ⟨accepted, still⟩
    · rw [unchanged]
      exact before
    · exact testado_of_accepted before accepted still
  · rw [entry]
    cases program.op c <;> trivial

/-- No other call updates the table and nothing else changes the connection. -/
structure SemInterferencia (program : Program) (c : CallId) (history : List (Event State Label)) :
    Prop where
  tabela : ∀ d update, (d, update) ∈ updates program history → d = c
  conexao : ∀ event ∈ history, event.label.alteraConexao program c = false

theorem conexao_of_run (run : Run (step program) start history s) (inv : Inv program start)
    (idle : start.pc c = .idle)
    (undisturbed : ∀ event ∈ history, event.label.alteraConexao program c = false) :
    s.conectado = (s.request c).conectado (program.op c) start.conectado ∧
      testado start.conectado (program.op c) (s.pc c) (s.request c) := by
  have unissued : start.request c = .unissued := by
    have progress := inv.progress c
    rw [idle] at progress
    exact progress
  apply inv.preserves (fun state =>
    state.conectado = (state.request c).conectado (program.op c) start.conectado ∧
      testado start.conectado (program.op c) (state.pc c) (state.request c)) run
  · rw [unissued, idle]
    constructor
    · rfl
    · cases program.op c <;> trivial
  · rintro event member source executed ⟨connection, tested⟩
    exact ⟨conectado_step source executed (undisturbed event member) connection,
      testado_step source executed connection tested⟩

/-! ## The whole call -/

/-- The answer of the library to the command of a returned call.  A call that has
issued no command counts as rejected. -/
def Respondida (resposta : Resposta) : Request → Prop
  | .done res => resposta = .concluida res
  | .rejected ret => ∃ erro, resposta = .rejeitada ret erro
  | _ => ∃ ret erro, resposta = .rejeitada ret erro

theorem replied_of_respondida {op : Operation} {value : Bool} {request : Request}
    {resposta : Resposta} (progress : progress op (.returned value) request)
    (respondida : Respondida resposta request) : Replied resposta request := by
  rcases progress with rfl | ⟨ret, rfl, _⟩ | ⟨res, rfl, _⟩
  · trivial
  · exact respondida
  · exact respondida

/-- The connection and the returned value of a call that is undisturbed. -/
theorem executar_conexao {op : Operation} {value antes depois : Bool} {request : Request}
    {resposta : Resposta} (cliente : Cliente) (same : cliente.conectado = antes)
    (uses : op.usesConexao = true) (progress : progress op (.returned value) request)
    (tested : testado antes op (.returned value) request)
    (connection : depois = request.conectado op antes) (respondida : Respondida resposta request) :
    (executar op resposta cliente).1.conectado = depois ∧
      (executar op resposta cliente).2 = value := by
  subst antes
  subst depois
  cases op with
  | subscribe args | unsubscribe topicos => cases uses
  | conectar =>
      rcases tested with ⟨connected, rfl, rfl⟩ | ⟨disconnected, _⟩
      · simp [executar, Connect.executar, connected, Request.conectado]
      · rcases progress with rfl | ⟨ret, rfl, rfl⟩ | ⟨res, rfl, rfl⟩
        · obtain ⟨ret, erro, rfl⟩ := respondida
          simp_all [executar, Connect.executar, Request.conectado]
        · obtain ⟨erro, rfl⟩ := respondida
          simp [executar, Connect.executar, disconnected, Request.conectado]
        · rw [Respondida] at respondida
          subst resposta
          simp [executar, Connect.executar, disconnected, Request.conectado]
  | desconectar =>
      rcases tested with ⟨disconnected, rfl, rfl⟩ | ⟨connected, issued⟩
      · simp [executar, Disconnect.executar, disconnected, Request.conectado]
      · rcases progress with rfl | ⟨ret, rfl, rfl⟩ | ⟨res, rfl, rfl⟩
        · exact absurd rfl issued
        · obtain ⟨erro, rfl⟩ := respondida
          simp [executar, Disconnect.executar, connected, Request.conectado]
        · rw [Respondida] at respondida
          subst resposta
          simp [executar, Disconnect.executar, connected, Request.conectado]

theorem executar_conectado_of_not_usesConexao {op : Operation} (resposta : Resposta)
    (cliente : Cliente) (uses : op.usesConexao = false) :
    (executar op resposta cliente).1.conectado = cliente.conectado := by
  cases op with
  | conectar | desconectar => cases uses
  | unsubscribe topicos => cases resposta <;> rfl
  | subscribe args =>
      simp only [executar, Subscribe.executar]
      split
      · rfl
      · cases resposta with
        | rejeitada ret erro => rfl
        | concluida res =>
            dsimp only
            split <;> rfl

theorem conectado_of_not_usesConexao {op : Operation} (uses : op.usesConexao = false)
    (antes : Bool) (request : Request) : request.conectado op antes = antes := by
  cases op with
  | conectar | desconectar => cases uses
  | subscribe args | unsubscribe topicos =>
      cases request <;> simp [Request.conectado, conectadoAfter]

/-- An undisturbed call is its big-step meaning. -/
theorem executar_of_semInterferencia (run : Run (step program) start history s)
    (inv : Inv program start) (idle : start.pc c = .idle) {value : Bool}
    (returned : s.pc c = .returned value) (undisturbed : SemInterferencia program c history)
    {resposta : Resposta} (respondida : Respondida resposta (s.request c)) :
    executar (program.op c) resposta ⟨start.callbackMap, start.conectado⟩ =
      (⟨s.callbackMap, s.conectado⟩, value) := by
  have reached : Inv program s := inv.after_run run
  have progress := reached.progress c
  obtain ⟨connection, tested⟩ := conexao_of_run run inv idle undisturbed.conexao
  rw [returned] at progress tested
  have replied := replied_of_respondida progress respondida
  have table : s.callbackMap =
      (executar (program.op c) resposta ⟨start.callbackMap, start.conectado⟩).1.callbackMap := by
    funext topico
    apply executar_of_alone run inv idle returned replied _ rfl
    intro d update member _
    exact undisturbed.tabela d update member
  have rest : (executar (program.op c) resposta
        ⟨start.callbackMap, start.conectado⟩).1.conectado = s.conectado ∧
      (executar (program.op c) resposta ⟨start.callbackMap, start.conectado⟩).2 = value := by
    cases uses : (program.op c).usesConexao with
    | true => exact executar_conexao _ rfl uses progress tested connection respondida
    | false =>
        constructor
        · rw [executar_conectado_of_not_usesConexao _ _ uses, connection,
            conectado_of_not_usesConexao uses]
        · have enters := entered_of_run run inv idle
          rw [returned] at enters
          exact executar_value _ uses progress enters replied
  rw [table, ← rest.1, ← rest.2]

/-- A call whose command was finished is one that hands a command to the
library. -/
theorem emite_of_done (run : Run (step program) start history s) (inv : Inv program start)
    (idle : start.pc c = .idle) {value : Bool} (returned : s.pc c = .returned value)
    (undisturbed : SemInterferencia program c history) {res : Completion}
    (done : s.request c = .done res) :
    emite (program.op c) ⟨start.callbackMap, start.conectado⟩ = true := by
  obtain ⟨_, tested⟩ := conexao_of_run run inv idle undisturbed.conexao
  have enters := entered_of_run run inv idle
  rw [returned, done] at tested enters
  cases op : program.op c with
  | conectar =>
      rw [op] at tested
      rcases tested with ⟨_, issued, _⟩ | ⟨disconnected, _⟩
      · cases issued
      · simp [emite, disconnected]
  | subscribe args =>
      rw [op] at enters
      simpa [emite, entered] using enters
  | unsubscribe topicos => rfl
  | desconectar =>
      rw [op] at tested
      rcases tested with ⟨_, issued, _⟩ | ⟨connected, _⟩
      · cases issued
      · exact connected

/-- The broker sees exactly the commands that the library has finished. -/
theorem sessaoAposChamada_of_done (run : Run (step program) start history s)
    (inv : Inv program start) (idle : start.pc c = .idle) {value : Bool}
    (returned : s.pc c = .returned value) (undisturbed : SemInterferencia program c history)
    {res : Completion} (done : s.request c = .done res) (sessao : Finset StdString) :
    sessaoAposChamada (program.op c) (.concluida res)
        ⟨⟨start.callbackMap, start.conectado⟩, sessao⟩ = sessaoApos (program.op c) res sessao := by
  rw [sessaoAposChamada, if_pos (emite_of_done run inv idle returned undisturbed done)]

/-! ## Series of calls -/

/-- The calls of a client that is used by one thread, one after another, with
losses of the connection in between. -/
inductive Serie (program : Program) (start : State) : List Passo → State → Prop
  | inicio : Serie program start [] start
  | chamada {passos : List Passo} {source target : State} {history : List (Event State Label)}
      {c : CallId} {value : Bool} {resposta : Resposta} :
      Serie program start passos source →
      Run (step program) source history target →
      source.pc c = .idle →
      target.pc c = .returned value →
      SemInterferencia program c history →
      Respondida resposta (target.request c) →
      Serie program start (passos ++ [.chamada (program.op c) resposta]) target
  | perda {passos : List Passo} {source target : State} :
      Serie program start passos source →
      step program source (.network false) = some target →
      Serie program start (passos ++ [.perda]) target

theorem Serie.inv {passos : List Passo} (serie : Serie program start passos s)
    (inv : Inv program start) : Inv program s := by
  induction serie with
  | inicio => exact inv
  | chamada _ run _ _ _ _ ih =>
      exact ih.after_run run
  | perda _ executed ih => exact ih.step executed

/-- A series of calls leaves the table and the connection that its list of steps
computes. -/
theorem Serie.cliente {passos : List Passo} (serie : Serie program start passos s)
    (inv : Inv program start) (sessao : Finset StdString) :
    (executarPassos ⟨⟨start.callbackMap, start.conectado⟩, sessao⟩ passos).cliente =
      ⟨s.callbackMap, s.conectado⟩ := by
  induction serie with
  | inicio => rfl
  | chamada earlier run idle returned undisturbed respondida ih =>
      rw [executarPassos_concat, Passo.executar, ih,
        executar_of_semInterferencia run (earlier.inv inv) idle returned undisturbed respondida]
  | perda _ executed ih =>
      cases executed
      rw [executarPassos_concat, Passo.executar, ih]

/-- A client that no thread has used before is what the list of steps computes
from the empty table. -/
theorem Serie.cliente_of_initial {passos : List Passo}
    (serie : Serie program (initial (fun _ => none) conectado) passos s) :
    (executarPassos (Mundo.vazio conectado) passos).cliente = ⟨s.callbackMap, s.conectado⟩ :=
  serie.cliente (inv_initial program _ conectado) ∅

end Runs

end PahoClient
