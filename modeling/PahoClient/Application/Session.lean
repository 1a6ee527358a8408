import PahoClient.Application.Registrations
import PahoClient.Client.Broker
import PahoClient.Properties.Outcome
import PahoClient.Properties.Rest

/-!
# `mqtt-test` and the session of the broker

The broker changes its session when it finishes a command, the client changes its
table in the loops of the call, and messages arrive at any time.  Each statement
of `main` nevertheless finds table and session in agreement, whatever the session
was when the program started.
-/

namespace PahoClient

/-- The session after as much of a command as the broker has finished. -/
def Request.sessao (op : Operation) (antes : Finset StdString) (request : Request) :
    Finset StdString :=
  match request.completion with
  | some res => sessaoApos op res antes
  | none => antes

/-- The codes that the broker returns are the levels that it grants and the one
of a refusal. -/
def Subscribe.NiveisValidos (args : Subscribe.Args) (data : SuccessData) : Prop :=
  ∀ codigo ∈ Subscribe.qosDevolvidos args data,
    codigo = 0 ∨ codigo = 1 ∨ codigo = 2 ∨ codigo = MQTT_BAD_SUBSCRIBE

/-- A subscription that succeeds is granted for each of its topics. -/
theorem mem_concedidos_of_aceita {args : Subscribe.Args} {data : SuccessData} {topico : StdString}
    (answered : (Operation.subscribe args).answers (.onSuccess data) = true)
    (granted : Subscribe.recusado args data = false) (valid : Subscribe.NiveisValidos args data)
    (named : topico ∈ args.topicos) : topico ∈ concedidos args data := by
  have lengths : (Subscribe.qosDevolvidos args data).length = args.topicos.length := by
    simpa [Operation.answers] using answered
  obtain ⟨i, bound, rfl⟩ := List.getElem_of_mem named
  obtain ⟨devolvido, _, returned, _, notRefused, _⟩ :=
    (recusado_eq_false_iff args data lengths).mp granted i bound
  have level : devolvido = 0 ∨ devolvido = 1 ∨ devolvido = 2 := by
    have possible := valid devolvido (List.mem_of_getElem? returned)
    tauto
  have paired : (args.topicos[i], devolvido) ∈
      args.topicos.zip (Subscribe.qosDevolvidos args data) :=
    List.mem_of_getElem? (List.getElem?_zip_eq_some.mpr ⟨List.getElem?_eq_getElem bound, returned⟩)
  simp only [concedidos, List.mem_toFinset, List.mem_map, List.mem_filter, decide_eq_true_eq]
  exact ⟨_, ⟨paired, level⟩, rfl⟩

end PahoClient

namespace PahoClient.MqttTest

open PahoClient.Transition
open PahoClient.Store

/-! ## The session of a history -/

/-- The session after a history. -/
def sessaoDe (mensagens : Mensagens) (inicial : Finset StdString) :
    List (Event Processo Rotulo) → Finset StdString
  | [] => inicial
  | event :: history =>
      match event.label with
      | .cliente (.complete c res) =>
          sessaoApos ((programa mensagens).op c) res (sessaoDe mensagens inicial history)
      | _ => sessaoDe mensagens inicial history

/-- The broker answers every subscription with valid codes. -/
def BrokerValido (mensagens : Mensagens) (history : List (Event Processo Rotulo)) : Prop :=
  ∀ event ∈ history, ∀ c args data, event.label = .cliente (.complete c (.onSuccess data)) →
    (programa mensagens).op c = .subscribe args → Subscribe.NiveisValidos args data

/-- What the broker holds where a statement is reached that `main` goes on with:
at first anything, later nothing that is not in the table, and between
subscribing and connecting again exactly what is in the table. -/
def Principal.Sessao (principal : Principal) (sessao : Finset StdString) : Prop :=
  match principal with
  | conectar i | subscribe i => i ≠ 0 → ∀ topico ∈ inscricao.topicos, topico ∈ sessao →
      principal.tabela topico ≠ none
  | unsubscribe _ | desconectar _ => ∀ topico ∈ inscricao.topicos,
      topico ∈ sessao ↔ principal.tabela topico ≠ none
  | destrutor codigo | desconectando codigo | destruir codigo | fim codigo => codigo = 0 →
      ∀ topico ∈ inscricao.topicos, topico ∈ sessao ↔ principal.tabela topico ≠ none

/-- Where the program can be while the broker holds a topic for which it has no
callback: before its first subscription, in a subscription that has been rolled
back, in an unsubscription that has erased the topic and has not succeeded, or on
its way out after a failure. -/
def Processo.Lacuna (p : Processo) (topico : StdString) : Prop :=
  match p.principal with
  | .conectar i => i = 0
  | .subscribe i =>
      let executados := lacosAt (.subscribe inscricao) (p.client.pc (4 * i + 1))
        (p.client.request (4 * i + 1))
      i = 0 ∧ executados = [] ∨ executados = [.desfazer, .inserir]
  | .unsubscribe i => topico ∈ desinscricao ∧
      lacosAt (.unsubscribe desinscricao) (p.client.pc (4 * i + 2))
        (p.client.request (4 * i + 2)) = [.apagar] ∧
      ∀ data, (p.client.request (4 * i + 2)).completion ≠ some (.onSuccess data)
  | .desconectar _ => False
  | .destrutor codigo | .desconectando codigo | .destruir codigo | .fim codigo => codigo = -1

/-- The table and the session at the statements of `main` and between them. -/
structure Concordancia (p : Processo) (sessao : Finset StdString) : Prop where
  parado : (∀ c, p.principal.chamada = some c → p.client.pc c = .idle) →
    p.principal.Sessao sessao
  coberta : ∀ topico ∈ inscricao.topicos, topico ∈ sessao →
    p.client.callbackMap topico = none → p.Lacuna topico

/-! ## The tables at the topics of the program -/

theorem todas_ne_none {topico : StdString} (named : topico ∈ inscricao.topicos) :
    todas topico ≠ none := by
  intro absent
  rw [todas, Subscribe.inserir, Table.insertAll_of_absent _ rfl,
    lookup_zip_eq_none_iff inscricao.covered] at absent
  exact absent named

theorem restante_ne_none_iff {topico : StdString} (named : topico ∈ inscricao.topicos) :
    restante topico ≠ none ↔ topico ∉ desinscricao := by
  by_cases erased : topico ∈ desinscricao
  · rw [restante, Unsubscribe.apagar, Table.eraseAll_of_mem erased]
    simp [erased]
  · rw [restante, Unsubscribe.apagar, Table.eraseAll_of_not_mem erased]
    simp [erased, todas_ne_none named]

/-! ## One call -/

section Statements

variable {i : Nat} {request : Request} {antes : Finset StdString}

/-- Connecting can only empty the session. -/
theorem sessao_conectar_subset (request : Request) (antes : Finset StdString) :
    request.sessao .conectar antes ⊆ antes := by
  unfold Request.sessao
  cases request.completion with
  | none => exact Finset.Subset.refl antes
  | some res =>
      cases res with
      | onFailure data => exact Finset.Subset.refl antes
      | onSuccess data =>
          simp only [sessaoApos]
          split
          · exact Finset.empty_subset antes
          · exact Finset.Subset.refl antes

theorem sessao_desconectar (request : Request) (antes : Finset StdString) :
    request.sessao .desconectar antes = antes := by
  unfold Request.sessao
  cases request.completion with
  | none => rfl
  | some res => cases res <;> rfl

/-- An unsubscription that has succeeded leaves what the table keeps. -/
theorem mem_sessao_unsubscribe {topico : StdString} {data : SuccessData}
    (succeeded : request.completion = some (.onSuccess data)) :
    topico ∈ request.sessao (.unsubscribe desinscricao) antes ↔
      topico ∈ antes ∧ topico ∉ desinscricao := by
  simp [Request.sessao, succeeded, sessaoApos]

/-- A call that returns true after its command was handed out has succeeded. -/
theorem completion_of_returned {op : Operation} (progress : progress op (.returned true) request)
    (issued : request ≠ .unissued) :
    ∃ data, request.completion = some (.onSuccess data) ∧ op.outcome (.onSuccess data) = true := by
  rcases progress with unissued | ⟨_, _, failed⟩ | ⟨res, rfl, succeeded⟩
  · exact absurd unissued issued
  · cases failed
  · cases res with
    | onFailure data => cases op <;> cases succeeded
    | onSuccess data => exact ⟨data, rfl, succeeded.symm⟩

/-- A successful call leaves the session in which the next statement is
reached. -/
theorem sessao_apos {mensagens : Mensagens} {principal : Principal} {c : CallId} {res : Bool}
    (calls : principal.chamada = some c)
    (progress : progress ((programa mensagens).op c) (.returned res) request)
    (enters : entered ((programa mensagens).op c) (.returned res) request)
    (valid : ∀ args data, (programa mensagens).op c = .subscribe args →
      request.completion = some (.onSuccess data) →
      (Operation.subscribe args).answers (.onSuccess data) = true ∧
        Subscribe.NiveisValidos args data)
    (before : principal.Sessao antes) :
    (principal.apos res).Sessao (request.sessao ((programa mensagens).op c) antes) := by
  cases principal with
  | conectar i =>
      cases calls
      rw [op_conectar]
      cases res with
      | false => intro ended; cases ended
      | true =>
          intro later topico named held
          exact before later topico named (sessao_conectar_subset request antes held)
  | subscribe i =>
      cases calls
      rw [op_subscribe] at progress enters valid ⊢
      cases res with
      | false => intro ended; cases ended
      | true =>
          have issued : request ≠ .unissued := by
            rcases enters with ⟨_, empty, _⟩ | ⟨issued, _⟩
            · cases empty
            · exact issued
          obtain ⟨data, completion, outcome⟩ := completion_of_returned progress issued
          obtain ⟨answered, levels⟩ := valid inscricao data rfl completion
          have accepted : Subscribe.recusado inscricao data = false := by
            simpa [Operation.outcome] using outcome
          intro topico named
          have held : topico ∈ request.sessao (.subscribe inscricao) antes := by
            simp [Request.sessao, completion, sessaoApos,
              mem_concedidos_of_aceita answered accepted levels named]
          exact iff_of_true held (todas_ne_none named)
  | unsubscribe i =>
      cases calls
      rw [op_unsubscribe] at progress enters ⊢
      cases res with
      | false => intro ended; cases ended
      | true =>
          obtain ⟨data, completion, _⟩ := completion_of_returned progress enters
          intro topico named
          have held : topico ∈ antes := (before topico named).mpr (todas_ne_none named)
          rw [mem_sessao_unsubscribe completion]
          exact (and_iff_right held).trans (restante_ne_none_iff named).symm
  | desconectar i =>
      cases calls
      rw [op_desconectar, sessao_desconectar]
      simp only [Principal.apos]
      split
      · intro later topico named held
        simpa [Principal.tabela] using (before topico named).mp held
      · intro _ topico named
        exact before topico named
  | desconectando codigo =>
      cases calls
      rw [op_desconectar, sessao_desconectar]
      exact before
  | destrutor codigo | destruir codigo | fim codigo => cases calls

end Statements

/-! ## Whole runs -/

/-- The session as the current call has left it. -/
def Processo.sessao (mensagens : Mensagens) (p : Processo) (antes : Finset StdString) :
    Finset StdString :=
  match p.principal.chamada with
  | some c => (p.client.request c).sessao ((programa mensagens).op c) antes
  | none => antes

/-- The session is what the current call has made of one in which its statement
can be reached. -/
def Sessoes (mensagens : Mensagens) (p : Processo) (sessao : Finset StdString) : Prop :=
  ∃ antes, p.principal.Sessao antes ∧ sessao = p.sessao mensagens antes

section Steps

variable {mensagens : Mensagens} {p q : Processo} {inicial : Finset StdString}
  {history : List (Event Processo Rotulo)}

theorem sessao_of_idle (inv : Inv (programa mensagens) p.client)
    (idle : ∀ c, p.principal.chamada = some c → p.client.pc c = .idle)
    (antes : Finset StdString) : p.sessao mensagens antes = antes := by
  unfold Processo.sessao
  cases calls : p.principal.chamada with
  | none => rfl
  | some c =>
      have progress := inv.progress c
      rw [idle c calls] at progress
      simp only [show p.client.request c = .unissued from progress, Request.sessao,
        Request.completion]

/-- The broker finishes commands of the current call only. -/
theorem chamada_of_complete (inv : Inv (programa mensagens) p.client) (ordem : Ordem p)
    {c : CallId} {res : Completion} {client : State}
    (executed : step (programa mensagens) p.client (.complete c res) = some client) :
    p.principal.chamada = some c ∧ p.client.request c = .pending := by
  cases step_effect executed with
  | complete pending answered =>
      refine ⟨ordem.atual c ?_, pending⟩
      by_contra resting
      have settled := inv.not_outstanding (eq_false_of_ne_true resting)
      rw [pending] at settled
      cases settled

theorem sessoes_cliente (inv : Inv (programa mensagens) p.client) (ordem : Ordem p)
    {label : Label} {client : State} {cout : List StdString}
    (executed : step (programa mensagens) p.client label = some client)
    (sessoes : Sessoes mensagens p (sessaoDe mensagens inicial history)) :
    Sessoes mensagens { p with client := client, cout := cout }
      (sessaoDe mensagens inicial
        (⟨p, .cliente label, { p with client := client, cout := cout }⟩ :: history)) := by
  obtain ⟨antes, reached, sessaoEq⟩ := sessoes
  refine ⟨antes, reached, ?_⟩
  by_cases finishes : ∃ c res, label = .complete c res
  · obtain ⟨c, res, rfl⟩ := finishes
    obtain ⟨calls, pending⟩ := chamada_of_complete inv ordem executed
    have recorded : (client.request c).completion = some res :=
      (completion_step inv executed c res).mpr (Or.inr rfl)
    have before : (p.client.request c).completion = none := by
      rw [pending]
      rfl
    simp only [sessaoDe, sessaoEq, Processo.sessao, calls, Request.sessao, recorded, before]
  · have same : ∀ c, (client.request c).completion = (p.client.request c).completion := by
      intro c
      apply Option.ext
      intro res
      rw [completion_step inv executed c res]
      exact or_iff_left fun labelEq => finishes ⟨c, res, labelEq⟩
    have kept : sessaoDe mensagens inicial
        (⟨p, .cliente label, { p with client := client, cout := cout }⟩ :: history) =
          sessaoDe mensagens inicial history := by
      cases label with
      | complete c res => exact absurd ⟨c, res, rfl⟩ finishes
      | _ => rfl
    rw [kept, sessaoEq]
    simp only [Processo.sessao, Request.sessao, same]

/-- A completion that a command has recorded was produced by the broker. -/
theorem completion_of_processo (run : Run (processo mensagens) inicio history p) {c : CallId}
    {res : Completion} (recorded : (p.client.request c).completion = some res) :
    ((programa mensagens).op c).answers res = true ∧
      ∃ event ∈ history, event.label = .cliente (.complete c res) := by
  obtain ⟨clientHistory, clientRun, labels⟩ := cliente_of_run run
  have plain : Run (step (programa mensagens)) (initial (fun _ => none) false) clientHistory
      p.client := clientRun.mono fun _ _ _ executed => step_of_serialStep executed
  refine ⟨answers_of_completion plain recorded, ?_⟩
  obtain ⟨event, member, labelEq⟩ := (completion_iff_mem plain c res).mp recorded
  have seen : Label.complete c res ∈ seenOf visto history := by
    rw [← labels, ← labelEq]
    exact List.mem_map_of_mem member
  obtain ⟨processEvent, processMember, view⟩ := List.mem_filterMap.mp seen
  refine ⟨processEvent, processMember, ?_⟩
  cases label : processEvent.label with
  | cliente label =>
      rw [label] at view
      cases view
      rfl
  | principal =>
      simp only [label, visto] at view
      split at view
      · split at view <;> cases view
      · cases view

theorem sessoes_principal (run : Run (processo mensagens) inicio history p)
    (valid : BrokerValido mensagens history) (moves : Passo mensagens p q)
    {sessao : Finset StdString} (sessoes : Sessoes mensagens p sessao) :
    Sessoes mensagens q sessao := by
  have inv := (lockInv_of_processo run).inv
  have ordem := ordem_of_run run
  obtain ⟨antes, reached, rfl⟩ := sessoes
  cases moves with
  | @testa codigo principal =>
      rw [principal] at reached
      refine ⟨antes, ?_, ?_⟩
      · dsimp only
        split <;> exact reached
      · have none : p.sessao mensagens antes = antes := by
          simp [Processo.sessao, principal, Principal.chamada]
        rw [none]
        symm
        apply sessao_of_idle
        · exact inv
        intro c calls
        apply ordem.futura c
        rw [principal]
        dsimp only at calls
        split at calls <;> cases calls
        exact Nat.le_add_right _ _
  | @destroi codigo principal =>
      rw [principal] at reached
      refine ⟨antes, reached, ?_⟩
      simp [Processo.sessao, principal, Principal.chamada]
  | @chama c calls idle => exact ⟨antes, reached, rfl⟩
  | @retorna c res calls returned =>
      have progress := inv.progress c
      have enters := entered_of_processo run c
      rw [returned] at progress enters
      have after : p.sessao mensagens antes =
          (p.client.request c).sessao ((programa mensagens).op c) antes := by
        simp only [Processo.sessao, calls]
      refine ⟨p.sessao mensagens antes, ?_, ?_⟩
      · rw [after]
        apply sessao_apos calls progress enters _ reached
        intro args data op recorded
        obtain ⟨answered, event, member, labelEq⟩ := completion_of_processo run recorded
        rw [op] at answered
        exact ⟨answered, valid event member c args data labelEq op⟩
      · symm
        apply sessao_of_idle
        · exact inv
        intro d next
        exact idle_apos ordem next

theorem sessoes_of_run (run : Run (processo mensagens) inicio history p)
    (valid : BrokerValido mensagens history) :
    Sessoes mensagens p (sessaoDe mensagens inicial history) := by
  induction run with
  | refl => exact ⟨inicial, fun first => absurd rfl first, rfl⟩
  | @tail history source target rotulo earlier executed ih =>
      have before := ih fun event member => valid event (List.mem_cons_of_mem _ member)
      cases rotulo with
      | cliente label =>
          obtain ⟨_, client, step, rfl⟩ := processo_cliente executed
          exact sessoes_cliente (lockInv_of_processo earlier).inv (ordem_of_run earlier)
            (step_of_serialStep step) before
      | principal =>
          exact sessoes_principal earlier
            (fun event member => valid event (List.mem_cons_of_mem _ member))
            (passo_of_proximo executed) before

/-! ## Topics without a callback -/

/-- The loops of a subscribe call have not begun, have filled the table or have
cleared it. -/
theorem lacosAt_subscribe_cases {args : Subscribe.Args} {pc : Pc} {request : Request}
    (progress : progress (.subscribe args) pc request) :
    lacosAt (.subscribe args) pc request = [] ∧ request = .unissued ∨
      lacosAt (.subscribe args) pc request = [.inserir] ∨
      lacosAt (.subscribe args) pc request = [.desfazer, .inserir] := by
  have undone : ∀ loops : Bool,
      (if loops then [Laco.desfazer, .inserir] else [.inserir]) = [.inserir] ∨
        (if loops then [Laco.desfazer, .inserir] else [.inserir]) = [.desfazer, .inserir] := by
    intro loops
    cases loops
    · exact Or.inl rfl
    · exact Or.inr rfl
  cases pc with
  | idle | testVazio => exact Or.inl ⟨rfl, progress⟩
  | acquire laco | loop laco =>
      cases laco with
      | inserir => exact Or.inl ⟨rfl, progress⟩
      | desfazer | apagar => exact Or.inr (undone _)
  | release laco =>
      cases laco with
      | desfazer => exact Or.inr (Or.inr rfl)
      | inserir | apagar => exact Or.inr (undone _)
  | returned value =>
      rcases progress with rfl | ⟨ret, rfl, _⟩ | ⟨res, rfl, _⟩
      · exact Or.inl ⟨rfl, rfl⟩
      · exact Or.inr (Or.inr rfl)
      · exact Or.inr (undone _)
  | _ => exact Or.inr (undone _)

theorem lacosAt_unsubscribe_cases (topicos : List StdString) (pc : Pc) (request : Request) :
    lacosAt (.unsubscribe topicos) pc request = [] ∨
      lacosAt (.unsubscribe topicos) pc request = [.apagar] := by
  cases pc with
  | idle | command | acquire laco | loop laco => exact Or.inl rfl
  | returned value =>
      simp only [lacosAt]
      split
      · exact Or.inr rfl
      · exact Or.inl rfl
  | _ => exact Or.inr rfl

/-- The broker holds a topic without a callback only where the program says
so. -/
theorem lacuna_of_orphan (inv : Inv (programa mensagens) p.client) (tabelas : Tabelas mensagens p)
    {sessao : Finset StdString} (sessoes : Sessoes mensagens p sessao) {topico : StdString}
    (named : topico ∈ inscricao.topicos) (held : topico ∈ sessao)
    (orphan : p.client.callbackMap topico = none) : p.Lacuna topico := by
  obtain ⟨antes, reached, rfl⟩ := sessoes
  unfold Processo.Lacuna
  unfold Processo.sessao at held
  cases principal : p.principal with
  | conectar i =>
      have table := (tabelas.dentro (by rw [principal]; rfl)).2 (4 * i) (by rw [principal]; rfl)
      rw [principal, op_conectar] at table
      simp only [principal, Principal.chamada, op_conectar] at held reached
      by_contra later
      apply reached later topico named (sessao_conectar_subset _ _ held)
      rw [← orphan, table]
      rfl
  | subscribe i =>
      have table := (tabelas.dentro (by rw [principal]; rfl)).2 (4 * i + 1)
        (by rw [principal]; rfl)
      have progress := inv.progress (4 * i + 1)
      rw [principal, op_subscribe] at table
      rw [op_subscribe] at progress
      simp only [principal, Principal.chamada, op_subscribe] at held reached
      rcases lacosAt_subscribe_cases progress with ⟨notYet, unissued⟩ | filled | cleared
      · refine Or.inl ⟨?_, notYet⟩
        by_contra later
        rw [unissued] at held
        apply reached later topico named held
        rw [← orphan, table, notYet]
        rfl
      · rw [filled] at table
        have all : p.client.callbackMap = todas := table.trans (inserir_tabela i)
        rw [all] at orphan
        exact absurd orphan (todas_ne_none named)
      · exact Or.inr cleared
  | unsubscribe i =>
      have table := (tabelas.dentro (by rw [principal]; rfl)).2 (4 * i + 2)
        (by rw [principal]; rfl)
      rw [principal, op_unsubscribe] at table
      simp only [principal, Principal.chamada, op_unsubscribe] at held reached
      rcases lacosAt_unsubscribe_cases desinscricao (p.client.pc (4 * i + 2))
        (p.client.request (4 * i + 2)) with notYet | erased
      · rw [notYet] at table
        rw [table] at orphan
        exact absurd orphan (todas_ne_none named)
      · rw [erased] at table
        have rest : p.client.callbackMap = restante := table
        have gone : topico ∈ desinscricao := by
          by_contra kept
          rw [rest] at orphan
          exact (restante_ne_none_iff named).mpr kept orphan
        refine ⟨gone, erased, ?_⟩
        intro data succeeded
        exact ((mem_sessao_unsubscribe succeeded).mp held).2 gone
  | desconectar i =>
      have table := (tabelas.dentro (by rw [principal]; rfl)).2 (4 * i + 3)
        (by rw [principal]; rfl)
      rw [principal, op_desconectar] at table
      simp only [principal, Principal.chamada, op_desconectar, sessao_desconectar] at held reached
      apply (reached topico named).mp held
      rw [← orphan, table]
      rfl
  | destrutor codigo | desconectando codigo | destruir codigo | fim codigo =>
      have left := tabelas.fora codigo (by rw [principal]; rfl)
      rcases left with ⟨ended, _, rest⟩ | ⟨failed, _⟩
      · have kept : topico ∈ antes := by
          simpa [principal, Principal.chamada, op_desconectar, sessao_desconectar] using held
        rw [principal] at reached
        rw [rest] at orphan
        exact absurd orphan ((reached ended topico named).mp kept)
      · exact failed

end Steps

/-- Whatever session the broker has kept from before, and whatever messages,
completions and connection losses come in between: `main` finds at each statement
a session that its table covers, and the very topics of its table from a
subscription until it connects again and when it has ended; and the broker holds
a topic without a callback only before the first subscription, in a subscription
that fails, in an unsubscription of the topic before it succeeds, and after a
failure. -/
theorem session_follows_main (mensagens : Mensagens) (inicial : Finset StdString)
    {history : List (Event Processo Rotulo)} {p : Processo}
    (run : Run (processo mensagens) inicio history p) (valid : BrokerValido mensagens history) :
    Concordancia p (sessaoDe mensagens inicial history) where
  parado idle := by
    obtain ⟨antes, reached, sessaoEq⟩ := sessoes_of_run run valid
    rw [sessaoEq, sessao_of_idle (lockInv_of_processo run).inv idle]
    exact reached
  coberta _ named held orphan :=
    lacuna_of_orphan (lockInv_of_processo run).inv (tabelas_of_run run) (sessoes_of_run run valid)
      named held orphan

/-- The library accepts the first unsubscribe request, and its topics are
erased. -/
def desinscricaoAceita : List Rotulo :=
  Rotulo.principal :: chamadas 2 3

theorem session_follows_main_unsubscribing :
    ∃ history p, Run (processo ⟨fun _ => [], fun _ => []⟩) inicio history p ∧
      BrokerValido ⟨fun _ => [], fun _ => []⟩ history ∧ p.Lacuna topic1 := by
  obtain ⟨p, run, final⟩ := exists_run_of_execute (processo ⟨fun _ => [], fun _ => []⟩) inicio
    (primeiraInscricao ++ desinscricaoAceita) (fun p => p.client.callbackMap topic1) none
    (by decide)
  have valid : BrokerValido ⟨fun _ => [], fun _ => []⟩
      (eventsOf (processo ⟨fun _ => [], fun _ => []⟩) inicio
        (primeiraInscricao ++ desinscricaoAceita)).reverse := by
    intro event member c args data labelEq op
    have executed := label_mem_of_mem_eventsOf member
    simp [labelEq, primeiraInscricao, desinscricaoAceita, chamadas, conclusao] at executed
    rcases executed with ⟨rfl, rfl⟩ | ⟨rfl, rfl⟩
    · cases op
    · cases op
      unfold Subscribe.NiveisValidos
      decide
  have agreed := session_follows_main _ ∅ run valid
  exact ⟨_, p, run, valid, agreed.coberta topic1 (by decide) (by decide) final⟩

end PahoClient.MqttTest
