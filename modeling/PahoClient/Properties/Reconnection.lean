import PahoClient.Client.Broker
import PahoClient.Transition.Splits

/-!
# Registrations across reconnections

The client keeps its table when the connection ends.  The broker resumes the
stored session at the next connection or starts an empty one, and the client does
not look at what the broker reports about it.
-/

namespace PahoClient

open PahoClient.Transition

/-- The runs under consideration: any call of `conectar` or `desconectar`,
subscriptions that are granted in full and name no registered topic, and
successful unsubscriptions. -/
def Passo.Permitido (mundo : Mundo) : Passo → Prop
  | chamada (.subscribe args) resposta =>
      (∀ topico ∈ args.topicos, mundo.cliente.callbackMap topico = none) ∧
        ∃ data, resposta = .concluida (.onSuccess data) ∧ Subscribe.recusado args data = false ∧
          ∀ topico ∈ args.topicos, topico ∈ concedidos args data
  | chamada (.unsubscribe _) resposta => ∃ data, resposta = .concluida (.onSuccess data)
  | chamada .conectar _ | chamada .desconectar _ | perda => True

/-- A run of a client that starts without registrations. -/
def percorrer (passos : List Passo) : Mundo :=
  executarPassos (Mundo.vazio false) passos

def Permitidos (passos : List Passo) : Prop :=
  ∀ antes passo depois, passos = antes ++ passo :: depois → passo.Permitido (percorrer antes)

/-- The step is a connection at which the broker starts an empty session. -/
def Passo.AbreSessao (mundo : Mundo) : Passo → Prop
  | chamada .conectar (.concluida (.onSuccess data)) =>
      mundo.cliente.conectado = false ∧ data.sessionPresent = 0
  | _ => False

/-- The step is an unsubscription that names the topic. -/
def Passo.Desinscreve (topico : StdString) : Passo → Prop
  | chamada (.unsubscribe topicos) _ => topico ∈ topicos
  | _ => False

/-- The topic was registered when the broker started an empty session and has not
been unsubscribed since. -/
def Caduca (passos : List Passo) (topico : StdString) : Prop :=
  ∃ antes nova depois, passos = antes ++ nova :: depois ∧ nova.AbreSessao (percorrer antes) ∧
    (percorrer antes).cliente.callbackMap topico ≠ none ∧
    ∀ passo ∈ depois, ¬ passo.Desinscreve topico

theorem percorrer_concat (passos : List Passo) (passo : Passo) :
    percorrer (passos ++ [passo]) = passo.executar (percorrer passos) :=
  executarPassos_concat _ passos passo

theorem permitidos_nil : Permitidos [] := by
  intro antes passo depois split
  simp at split

theorem permitidos_concat (passos : List Passo) (passo : Passo) :
    Permitidos (passos ++ [passo]) ↔ Permitidos passos ∧ passo.Permitido (percorrer passos) :=
  forall_split_concat_iff

section Step

variable {mundo : Mundo} {passo : Passo} {topico : StdString}

theorem caduca_nil : ¬ Caduca [] topico := by
  rintro ⟨antes, nova, depois, split, _⟩
  simp at split

/-- A topic lapses when it is registered at the start of an empty session, and
stops being lapsed when it is unsubscribed. -/
theorem caduca_concat {passos : List Passo} :
    Caduca (passos ++ [passo]) topico ↔
      (passo.AbreSessao (percorrer passos) ∧
        (percorrer passos).cliente.callbackMap topico ≠ none) ∨
      (Caduca passos topico ∧ ¬ passo.Desinscreve topico) := by
  simpa only [Caduca, and_assoc] using exists_split_concat_iff
    (fun antes nova => nova.AbreSessao (percorrer antes) ∧
      (percorrer antes).cliente.callbackMap topico ≠ none)
    (fun outro => ¬ outro.Desinscreve topico)

/-- What the table and the session say about a topic after a run. -/
structure Acordo (passos : List Passo) (topico : StdString) : Prop where
  filtro : topico ∈ (percorrer passos).sessao →
    (percorrer passos).cliente.callbackMap topico ≠ none
  chave : ((percorrer passos).cliente.callbackMap topico ≠ none ∧
    topico ∉ (percorrer passos).sessao) ↔ Caduca passos topico

theorem acordo_nil : Acordo [] topico where
  filtro held := by simp [percorrer, executarPassos, Mundo.vazio] at held
  chave := by simp [percorrer, executarPassos, Mundo.vazio, caduca_nil]

/-- The step changes neither the entry of the topic nor its place in the
session. -/
def Passo.Conserva (passo : Passo) (mundo : Mundo) (topico : StdString) : Prop :=
  (passo.executar mundo).cliente.callbackMap topico = mundo.cliente.callbackMap topico ∧
    (topico ∈ (passo.executar mundo).sessao ↔ topico ∈ mundo.sessao)

theorem acordo_of_conserva {passos : List Passo} (agreed : Acordo passos topico)
    (kept : passo.Conserva (percorrer passos) topico)
    (resumed : ¬ passo.AbreSessao (percorrer passos)) (subscribed : ¬ passo.Desinscreve topico) :
    Acordo (passos ++ [passo]) topico := by
  constructor
  · rw [percorrer_concat, kept.1, kept.2]
    exact agreed.filtro
  · rw [percorrer_concat, kept.1, kept.2, caduca_concat, agreed.chave]
    tauto

theorem conserva_of_conectar {resposta : Resposta}
    (resumed : ¬ (Passo.chamada .conectar resposta).AbreSessao mundo) :
    (Passo.chamada .conectar resposta).Conserva mundo topico := by
  constructor
  · exact executar_of_not_mem resposta mundo.cliente List.not_mem_nil
  · cases resposta with
    | rejeitada ret erro => rfl
    | concluida res =>
        cases res with
        | onFailure res => simp [Passo.executar, sessaoAposChamada, sessaoApos]
        | onSuccess data =>
            simp only [Passo.AbreSessao, not_and] at resumed
            simp only [Passo.executar, sessaoAposChamada, sessaoApos, emite, Bool.not_eq_true']
            split
            · rename_i disconnected
              rw [if_neg (resumed disconnected)]
            · rfl

theorem conserva_of_desconectar (resposta : Resposta) :
    (Passo.chamada .desconectar resposta).Conserva mundo topico := by
  constructor
  · exact executar_of_not_mem resposta mundo.cliente List.not_mem_nil
  · cases resposta with
    | rejeitada ret erro => rfl
    | concluida res => cases res <;> simp [Passo.executar, sessaoAposChamada, sessaoApos]

/-- When the broker starts an empty session every registered topic is lost. -/
theorem acordo_of_abreSessao {passos : List Passo} (agreed : Acordo passos topico)
    (opens : passo.AbreSessao (percorrer passos)) : Acordo (passos ++ [passo]) topico := by
  match passo, opens with
  | .chamada .conectar (.concluida (.onSuccess data)), opens =>
      have fresh : (Passo.executar (.chamada .conectar (.concluida (.onSuccess data)))
          (percorrer passos)).sessao = ∅ := by
        simp [Passo.executar, sessaoAposChamada, emite, sessaoApos, opens.1, opens.2]
      have table : (Passo.executar (.chamada .conectar (.concluida (.onSuccess data)))
          (percorrer passos)).cliente.callbackMap topico =
            (percorrer passos).cliente.callbackMap topico :=
        executar_of_not_mem _ (percorrer passos).cliente List.not_mem_nil
      constructor
      · simp [percorrer_concat, fresh]
      · rw [percorrer_concat, fresh, table, caduca_concat, ← agreed.chave]
        simp only [Finset.notMem_empty, not_false_eq_true, and_true]
        tauto

/-- A subscription puts its topics into the table and into the session. -/
theorem acordo_of_subscribe {passos : List Passo} {args : Subscribe.Args} {data : SuccessData}
    (agreed : Acordo passos topico)
    (unregistered : ∀ topico ∈ args.topicos, (percorrer passos).cliente.callbackMap topico = none)
    (accepted : Subscribe.recusado args data = false)
    (granted : ∀ topico ∈ args.topicos, topico ∈ concedidos args data) :
    Acordo (passos ++ [.chamada (.subscribe args) (.concluida (.onSuccess data))]) topico := by
  by_cases named : topico ∈ args.topicos
  · have nonempty : args.topicos ≠ [] := List.ne_nil_of_mem named
    have success : (Operation.subscribe args).outcome (.onSuccess data) = true := by
      rw [Operation.outcome, accepted]
      rfl
    have held : topico ∈ (percorrer (passos ++
        [.chamada (.subscribe args) (.concluida (.onSuccess data))])).sessao := by
      simp [percorrer_concat, Passo.executar, sessaoAposChamada, emite, sessaoApos, nonempty,
        granted topico named]
    constructor
    · intro _
      rw [percorrer_concat]
      exact (isSome_of_concedida nonempty success).mpr (Or.inl named)
    · rw [caduca_concat, ← agreed.chave]
      simp [held, unregistered topico named, Passo.AbreSessao]
  · refine acordo_of_conserva agreed ?_ not_false not_false
    constructor
    · exact executar_of_not_mem _ (percorrer passos).cliente named
    · have notAdded : topico ∉ concedidos args data :=
        fun added => named (mem_topicos_of_concedidos added)
      simp only [Passo.executar, sessaoAposChamada, sessaoApos]
      split <;> simp [notAdded]

/-- An unsubscription removes its topics from the table and from the session. -/
theorem acordo_of_unsubscribe {passos : List Passo} {topicos : List StdString}
    {data : SuccessData} (agreed : Acordo passos topico) :
    Acordo (passos ++ [.chamada (.unsubscribe topicos) (.concluida (.onSuccess data))])
      topico := by
  have session : topico ∈ (percorrer (passos ++
      [.chamada (.unsubscribe topicos) (.concluida (.onSuccess data))])).sessao ↔
        topico ∈ (percorrer passos).sessao ∧ topico ∉ topicos := by
    simp [percorrer_concat, Passo.executar, sessaoAposChamada, emite, sessaoApos]
  by_cases named : topico ∈ topicos
  · have absent : (percorrer (passos ++
        [.chamada (.unsubscribe topicos) (.concluida (.onSuccess data))])).cliente.callbackMap
          topico = none := by
      rw [percorrer_concat]
      exact Store.Table.eraseAll_of_mem named
    constructor
    · intro held
      exact absurd named (session.mp held).2
    · rw [caduca_concat]
      simp [absent, Passo.AbreSessao, Passo.Desinscreve, named]
  · refine acordo_of_conserva agreed ?_ not_false named
    constructor
    · exact executar_of_not_mem _ (percorrer passos).cliente named
    · rw [← percorrer_concat, session]
      simp [named]

/-- Every permitted step keeps the agreement. -/
theorem acordo_concat {passos : List Passo} (agreed : Acordo passos topico)
    (allowed : passo.Permitido (percorrer passos)) : Acordo (passos ++ [passo]) topico := by
  cases passo with
  | perda => exact acordo_of_conserva agreed ⟨rfl, Iff.rfl⟩ not_false not_false
  | chamada op resposta =>
      cases op with
      | conectar =>
          by_cases opens : (Passo.chamada .conectar resposta).AbreSessao (percorrer passos)
          · exact acordo_of_abreSessao agreed opens
          · exact acordo_of_conserva agreed (conserva_of_conectar opens) opens not_false
      | desconectar =>
          exact acordo_of_conserva agreed (conserva_of_desconectar resposta) not_false not_false
      | subscribe args =>
          obtain ⟨unregistered, data, rfl, accepted, granted⟩ := allowed
          exact acordo_of_subscribe agreed unregistered accepted granted
      | unsubscribe topicos =>
          obtain ⟨data, rfl⟩ := allowed
          exact acordo_of_unsubscribe agreed

end Step

/-- After every run each filter that the broker holds is registered, and the
registered topics that it does not hold are those that were registered when it
started an empty session and have not been unsubscribed since. -/
theorem registrations_across_sessions (passos : List Passo) (allowed : Permitidos passos)
    (topico : StdString) : Acordo passos topico := by
  induction passos using List.reverseRecOn with
  | nil => exact acordo_nil
  | append_singleton passos passo ih =>
      obtain ⟨earlier, last⟩ := (permitidos_concat passos passo).mp allowed
      exact acordo_concat (ih earlier) last

/-- A connection that the broker accepts. -/
def conexaoAceita (sessionPresent : Int) : Passo :=
  .chamada .conectar (.concluida (.onSuccess ⟨0, [], sessionPresent⟩))

/-- A subscription, a loss of the connection and a resumed session. -/
def sessaoRetomada : List Passo :=
  [conexaoAceita 0, .chamada (.subscribe topicoUnico) (.concluida (.onSuccess ⟨1, [], 0⟩)), .perda,
    conexaoAceita 1]

theorem permitidos_sessaoRetomada : Permitidos sessaoRetomada := by
  apply (permitidos_concat [_, _, _] _).mpr
  apply And.intro _ trivial
  apply (permitidos_concat [_, _] _).mpr
  apply And.intro _ trivial
  apply (permitidos_concat [_] _).mpr
  constructor
  · exact (permitidos_concat [] _).mpr ⟨permitidos_nil, trivial⟩
  · exact ⟨by decide, _, rfl, by decide, by decide⟩

theorem registrations_across_sessions_resumed :
    Permitidos sessaoRetomada ∧ [97] ∈ (percorrer sessaoRetomada).sessao ∧
      (percorrer sessaoRetomada).cliente.callbackMap [97] ≠ none := by
  have held : [97] ∈ (percorrer sessaoRetomada).sessao := by decide
  exact ⟨permitidos_sessaoRetomada, held,
    (registrations_across_sessions sessaoRetomada permitidos_sessaoRetomada [97]).filtro held⟩

/-- The broker starts an empty session after a loss of the connection, and the
client still has its registration. -/
theorem registrations_not_always_equal :
    ¬ ∀ (passos : List Passo) (resposta : Resposta),
      Permitidos (passos ++ [.chamada .conectar resposta]) →
        (executar .conectar resposta (percorrer passos).cliente).2 = true →
        ∀ topico, (percorrer (passos ++ [.chamada .conectar resposta])).cliente.callbackMap topico ≠
          none ↔ topico ∈ (percorrer (passos ++ [.chamada .conectar resposta])).sessao := by
  intro equal
  have allowed : Permitidos (sessaoRetomada ++ [.perda] ++ [conexaoAceita 0]) := by
    rw [permitidos_concat, permitidos_concat]
    exact ⟨⟨permitidos_sessaoRetomada, trivial⟩, trivial⟩
  have held := (equal _ _ allowed (by decide) [97]).mp (by decide)
  revert held
  decide

end PahoClient
